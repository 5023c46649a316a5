import Mathlib.Data.List.Nodup
import MultAIplayer.Cli.RoomEvents

/-!
# Room events in the CLI: once, and never stuck?

`RoomSafe` says that no ciphertext is applied twice, that no envelope is projected twice, that a
session knows no more than is saved, and that a room without failed saves and crashes can be opened
again. It holds along every run whose steps are `Unhindered` (`roomSafe_run`); after an envelope
that the MLS state takes and the checks refuse, the mark of `begin_incoming` stays and the room is
blocked (`not_roomSafe_foreign`).

An envelope of others is projected once because its ciphertext is; an own one because its id is
remembered, as long as the bounded list keeps it.
-/

namespace MultAIplayer.Cli

namespace RoomRecoveryState

variable (r : RoomRecoveryState)

theorem processed_iff {id : String} : r.processed id = true ↔ id ∈ r.processedEnvelopeIds := by
  rw [processed, List.contains_iff_mem]

theorem processed_rememberProcessed (id : String) : (r.rememberProcessed id).processed id = true := by
  rw [processed_iff]
  unfold rememberProcessed
  split
  case isTrue h => exact r.processed_iff.mp h
  case isFalse h =>
    dsimp only
    split
    · rename_i hlong
      have hold : 1 ≤ r.processedEnvelopeIds.length := by
        rw [List.length_append, List.length_singleton, maxProcessedEnvelopes] at hlong
        omega
      rw [List.drop_append_of_le_length hold]
      simp
    · simp

@[simp] theorem processedEnvelopeIds_remember (id : String) (projected : Option ProjectedEvent) :
    (r.remember id projected).processedEnvelopeIds =
      (r.rememberProcessed id).processedEnvelopeIds := by
  cases projected <;> rfl

@[simp] theorem pendingEnvelopeId_remember (id : String) (projected : Option ProjectedEvent) :
    (r.remember id projected).pendingEnvelopeId = r.pendingEnvelopeId := by
  have hprocessed : (r.rememberProcessed id).pendingEnvelopeId = r.pendingEnvelopeId := by
    unfold rememberProcessed
    split <;> rfl
  cases projected <;> exact hprocessed

theorem processed_remember (id : String) (projected : Option ProjectedEvent) :
    (r.remember id projected).processed id = true := by
  rw [processed_iff, processedEnvelopeIds_remember, ← processed_iff]
  exact r.processed_rememberProcessed id

/-- What was remembered is remembered still, or dropped. -/
theorem processed_or_dropped {old : String} (id : String) (projected : Option ProjectedEvent)
    (h : r.processed old = true) :
    (r.remember id projected).processed old = true ∨ old ∈ r.dropped id := by
  have hids : (r.remember id projected).processed old = (r.rememberProcessed id).processed old := by
    rw [processed, processedEnvelopeIds_remember, processed]
  rw [hids]
  cases hkept : (r.rememberProcessed id).processed old with
  | true => exact .inl rfl
  | false => exact .inr (List.mem_filter.mpr ⟨r.processed_iff.mp h, by rw [hkept]; rfl⟩)

/-- What is remembered does not depend on the offers. -/
theorem dropped_handoffs (handoffs : HandoffState) (id : String) :
    { r with handoffs }.dropped id = r.dropped id := by
  have hids : ({ r with handoffs }.rememberProcessed id).processedEnvelopeIds =
      (r.rememberProcessed id).processedEnvelopeIds := by
    unfold rememberProcessed
    split <;> rename_i h
    · rw [if_pos (show r.processed id = true from h)]
    · rw [if_neg (show ¬r.processed id = true from h)]
  unfold dropped
  simp only [processed, hids]

/-- Only history is cut. -/
theorem fit_eq_some {size : RoomRecoveryState → ℕ} {history : List ProjectedEvent}
    {kept : RoomRecoveryState} (h : r.fit size history = some kept) :
    ∃ history, kept = { r with history } := by
  induction history with
  | nil =>
    rw [fit, Option.ite_none_right_eq_some] at h
    exact ⟨[], (Option.some.inj h.2).symm⟩
  | cons event rest ih =>
    rw [fit] at h
    split at h
    · exact ⟨event :: rest, (Option.some.inj h).symm⟩
    · exact ih h

end RoomRecoveryState

/-! ### What the log says -/

def appliedOf : RoomLogEvent → Option String
  | .applied ciphertext => some ciphertext
  | _ => none

def transferredOf : RoomLogEvent → Option String
  | .transferred id => some id
  | _ => none

def projectedOf : RoomLogEvent → Option MlsRelayMessage
  | .projected envelope _ => some envelope
  | _ => none

/-- All saves have succeeded, and no crash has happened. -/
def Undisturbed (log : List RoomLogEvent) : Prop :=
  .saveFailed ∉ log ∧ .crashed ∉ log

instance (log : List RoomLogEvent) : Decidable (Undisturbed log) :=
  inferInstanceAs (Decidable (_ ∧ _))

/-- `open_room_event` is not running. -/
def RoomClient.Idle (c : RoomClient) : Prop :=
  ∀ session, c.session = some session → session.at_ = .idle

/-- The contract of the room log. -/
structure RoomSafe (c : RoomClient) (log : List RoomLogEvent) : Prop where
  appliedOnce : (log.filterMap appliedOf).Nodup
  transferredOnce : (log.filterMap transferredOf).Nodup
  projectedOnce : (log.filterMap projectedOf).Nodup
  /-- The state in memory is not ahead of the saved one. -/
  notAhead : ∀ session, c.session = some session → session.recovery = c.savedRecovery
  unblocked : Undisturbed log → c.Idle → c.savedRecovery.pendingEnvelopeId = none
  /-- The next start finds no interrupted recovery. -/
  restarts : Undisturbed log → c.Idle → ∀ room valid,
    .startFailed .recoveryInterrupted ∉ ({ c with session := none }.start room valid).2

/-! ### The condition -/

section Condition

variable (size : RoomRecoveryState → ℕ) (parse : String → String → Option RoomEvent)

/-- A state that fits, and a save that succeeds. -/
def Kept (r : RoomRecoveryState) (saves : Bool) : Prop :=
  (r.fit size r.history).isSome = true ∧ saves = true

/-- What `open_room_event` writes on its way to `process_incoming` is saved, and an own transfer is
not one that the list of processed envelopes has dropped. -/
def Welcomes (c : RoomClient) (session : RoomSession) (envelope : MlsRelayMessage) (saves : Bool) :
    Prop :=
  match c.route session envelope with
  | .skips | .rejects _ => True
  | .ownTransfer => envelope.id ∉ c.forgotten
  | .ownEcho => Kept size (session.recovery.remember envelope.id none) saves
  | .begins => Kept size (session.recovery.mark envelope.id) saves

/-- The MLS state takes the ciphertext of a marked envelope, and its authenticated data parse. -/
def Takes (c : RoomClient) (session : RoomSession)
    (incoming : Option (Option (Option AuthenticatedData × String))) : Prop :=
  match session.at_, incoming with
  | .begun _, none => False
  | .begun envelope, some message =>
    envelope.mlsMessage ∉ c.mls.applied ∧ (RoomClient.openedOf message).isOk = true
  | _, _ => True

/-- What a processed envelope says passes the checks, and the state with it is saved. -/
def Finishes (session : RoomSession) (group : Option HostGroupState) (saves : Bool) : Prop :=
  match session.at_ with
  | .processed envelope opened =>
    match RoomClient.projection parse session.room session.recovery.handoffs envelope opened group with
    | .error _ => False
    | .ok (projected, handoffs) =>
      Kept size (RoomClient.finished session.recovery handoffs envelope projected) saves
  | .recovered envelope =>
    match RoomClient.recoverTransfer session.recovery.handoffs envelope group with
    | .error _ => True
    | .ok (event, handoffs) =>
      Kept size ({ session.recovery with handoffs }.remember envelope.id (some event)) saves
  | .idle | .begun _ => True

/-- The steps after which the contract holds. -/
def Unhindered (c : RoomClient) : RoomAction → Prop
  | .receive envelope _ saves =>
    ∀ session ∈ c.session, session.at_ = .idle → Welcomes size c session envelope saves
  | .process incoming => ∀ session ∈ c.session, Takes c session incoming
  | .finish group saves => ∀ session ∈ c.session, Finishes size parse session group saves
  | _ => True

instance (r : RoomRecoveryState) (saves : Bool) : Decidable (Kept size r saves) :=
  inferInstanceAs (Decidable (_ ∧ _))

instance (c : RoomClient) (session : RoomSession) (envelope : MlsRelayMessage) (saves : Bool) :
    Decidable (Welcomes size c session envelope saves) := by
  unfold Welcomes
  split <;> infer_instance

instance (c : RoomClient) (session : RoomSession)
    (incoming : Option (Option (Option AuthenticatedData × String))) :
    Decidable (Takes c session incoming) := by
  unfold Takes
  split <;> infer_instance

instance (session : RoomSession) (group : Option HostGroupState) (saves : Bool) :
    Decidable (Finishes size parse session group saves) := by
  unfold Finishes
  split
  · split <;> infer_instance
  · split <;> infer_instance
  · infer_instance
  · infer_instance

instance (c : RoomClient) (action : RoomAction) : Decidable (Unhindered size parse c action) := by
  cases action <;> unfold Unhindered <;> infer_instance

end Condition

/-! ### The invariant -/

variable {size : RoomRecoveryState → ℕ} {parse : String → String → Option RoomEvent}
  {c c' : RoomClient} {log new : List RoomLogEvent} {session : RoomSession}

/-- What holds of the envelope that `open_room_event` is at. -/
def Standing (c : RoomClient) (log : List RoomLogEvent) : Opening → Prop
  | .idle => True
  | .begun envelope =>
    c.isOwn envelope = false ∧ c.savedRecovery.pendingEnvelopeId = some envelope.id
  | .processed envelope _ =>
    c.isOwn envelope = false ∧ c.savedRecovery.pendingEnvelopeId = some envelope.id ∧
      envelope.mlsMessage ∈ c.mls.applied ∧ envelope ∉ log.filterMap projectedOf
  | .recovered envelope => c.isOwn envelope = true ∧ envelope ∉ log.filterMap projectedOf

/-- The mark of `begin_incoming` is saved. -/
def Opening.Marked : Opening → Prop
  | .begun _ | .processed _ _ => True
  | .idle | .recovered _ => False

structure RoomInv (c : RoomClient) (log : List RoomLogEvent) : Prop where
  applied : log.filterMap appliedOf = c.mls.applied
  appliedOnce : c.mls.applied.Nodup
  /-- No transfer is both merged and still queued. -/
  transferredOnce : (log.filterMap transferredOf ++ c.mls.pending).Nodup
  staged : ∀ id ∈ log.filterMap transferredOf ++ c.mls.pending, id ∈ c.mls.staged
  projectedOnce : (log.filterMap projectedOf).Nodup
  /-- An own envelope that is projected is remembered, or has been. -/
  own : ∀ envelope ∈ log.filterMap projectedOf, c.isOwn envelope = true →
    c.savedRecovery.processed envelope.id = true ∨ envelope.id ∈ c.forgotten
  others : ∀ envelope ∈ log.filterMap projectedOf, c.isOwn envelope = false →
    envelope.mlsMessage ∈ c.mls.applied
  notAhead : ∀ session, c.session = some session → session.recovery = c.savedRecovery
  standing : ∀ session, c.session = some session → Standing c log session.at_
  unblocked : Undisturbed log → (∀ session, c.session = some session → ¬session.at_.Marked) →
    c.savedRecovery.pendingEnvelopeId = none

theorem Undisturbed.of_append (h : Undisturbed (log ++ new)) : Undisturbed log :=
  ⟨fun hmem ↦ h.1 (List.mem_append_left _ hmem), fun hmem ↦ h.2 (List.mem_append_left _ hmem)⟩

theorem roomInv_fresh (userId deviceId : String) : RoomInv { userId, deviceId } [] where
  applied := rfl
  appliedOnce := List.nodup_nil
  transferredOnce := List.nodup_nil
  staged := by simp
  projectedOnce := List.nodup_nil
  own := by simp
  others := by simp
  notAhead _ h := (Option.some_ne_none _ h.symm).elim
  standing _ h := (Option.some_ne_none _ h.symm).elim
  unblocked _ _ := rfl

theorem RoomInv.safe (h : RoomInv c log) : RoomSafe c log where
  appliedOnce := h.applied ▸ h.appliedOnce
  transferredOnce := (List.nodup_append.mp h.transferredOnce).1
  projectedOnce := h.projectedOnce
  notAhead := h.notAhead
  unblocked hcalm hidle := h.unblocked hcalm fun session hsession ↦ by
    rw [hidle session hsession]
    exact id
  restarts hcalm hidle room valid := by
    have hpending : c.savedRecovery.pendingEnvelopeId = none :=
      h.unblocked hcalm fun session hsession ↦ by
        rw [hidle session hsession]
        exact id
    have hsame : ({ c with session := none } : RoomClient).savedRecovery = c.savedRecovery := rfl
    unfold RoomClient.start
    rw [hsame, hpending]
    cases valid <;> simp

/-! ### Steps that neither apply nor project -/

/-- An event about no message. -/
@[grind =] def RoomLogEvent.Quiet (e : RoomLogEvent) : Prop :=
  appliedOf e = none ∧ transferredOf e = none ∧ projectedOf e = none

theorem quiet_returned (envelope : MlsRelayMessage)
    (result : Except ChatError (Option ProjectedEvent)) :
    (RoomLogEvent.returned envelope result).Quiet := ⟨rfl, rfl, rfl⟩

theorem filterMap_append_quiet {α : Type} {f : RoomLogEvent → Option α}
    (hnew : ∀ e ∈ new, f e = none) : (log ++ new).filterMap f = log.filterMap f := by
  rw [List.filterMap_append, List.filterMap_eq_nil_iff.mpr hnew, List.append_nil]

/-- The MLS state and what is saved of the envelopes stay. -/
theorem RoomInv.quiet (h : RoomInv c log) (huser : c'.userId = c.userId)
    (hdevice : c'.deviceId = c.deviceId) (hmls : c'.mls = c.mls)
    (hkept : ∀ id, c.savedRecovery.processed id = true ∨ id ∈ c.forgotten →
      c'.savedRecovery.processed id = true ∨ id ∈ c'.forgotten)
    (hnew : ∀ e ∈ new, e.Quiet)
    (hahead : ∀ session, c'.session = some session → session.recovery = c'.savedRecovery)
    (hstanding : ∀ session, c'.session = some session → Standing c' log session.at_)
    (hunblocked : Undisturbed (log ++ new) →
      (∀ session, c'.session = some session → ¬session.at_.Marked) →
      c'.savedRecovery.pendingEnvelopeId = none) : RoomInv c' (log ++ new) := by
  have hprojected : (log ++ new).filterMap projectedOf = log.filterMap projectedOf :=
    filterMap_append_quiet fun e he ↦ (hnew e he).2.2
  have htransferred : (log ++ new).filterMap transferredOf = log.filterMap transferredOf :=
    filterMap_append_quiet fun e he ↦ (hnew e he).2.1
  have hown (envelope : MlsRelayMessage) : c'.isOwn envelope = c.isOwn envelope := by
    unfold RoomClient.isOwn
    rw [huser, hdevice]
  refine ⟨?_, hmls ▸ h.appliedOnce, ?_, ?_, hprojected ▸ h.projectedOnce, ?_, ?_, hahead, ?_,
    hunblocked⟩
  · rw [filterMap_append_quiet fun e he ↦ (hnew e he).1, hmls, h.applied]
  · rw [htransferred, hmls]
    exact h.transferredOnce
  · rw [htransferred, hmls]
    exact h.staged
  · intro envelope hmem hmine
    exact hkept _ (h.own envelope (hprojected ▸ hmem) (hown envelope ▸ hmine))
  · intro envelope hmem hmine
    rw [hmls]
    exact h.others envelope (hprojected ▸ hmem) (hown envelope ▸ hmine)
  · intro session hsession
    have hat := hstanding session hsession
    revert hat
    cases session.at_ <;> simp only [Standing, hprojected] <;> exact id

/-- `open_room_event` returns without a change. -/
theorem RoomInv.returns (h : RoomInv c log) (hsession : c.session = some session)
    (hat : ¬session.at_.Marked) (envelope : MlsRelayMessage)
    (result : Except ChatError (Option ProjectedEvent)) :
    RoomInv (c.returns envelope result).1 (log ++ (c.returns envelope result).2) := by
  have hidle (session' : RoomSession)
      (h' : (c.returns envelope result).1.session = some session') :
      session' = { session with at_ := .idle } := by
    rw [RoomClient.returns, hsession] at h'
    exact (Option.some.inj h').symm
  refine h.quiet rfl rfl rfl (fun _ ↦ id) ?_ ?_ ?_ ?_
  · intro e he
    rw [List.mem_singleton.mp he]
    exact quiet_returned _ _
  · intro session' h'
    rw [hidle session' h']
    exact h.notAhead session hsession
  · intro session' h'
    rw [hidle session' h']
    trivial
  · intro hcalm _
    refine h.unblocked hcalm.of_append fun session' h' ↦ ?_
    rw [← Option.some.inj (hsession.symm.trans h')]
    exact hat

/-! ### Saves that succeed -/

theorem RoomClient.persistThen_kept {saves : Bool} (hkept : Kept size session.recovery saves)
    (envelope : MlsRelayMessage) (next : RoomClient → RoomClient × List RoomLogEvent) :
    ∃ history, c.persistThen size session saves envelope next =
      next { c with
        session := some { session with recovery := { session.recovery with history } }
        saved := some { session.recovery with history } } := by
  obtain ⟨hfits, rfl⟩ := hkept
  obtain ⟨kept, hfit⟩ := Option.isSome_iff_exists.mp hfits
  obtain ⟨history, rfl⟩ := RoomRecoveryState.fit_eq_some _ hfit
  refine ⟨history, ?_⟩
  unfold RoomClient.persistThen
  rw [hfit]
  rfl

theorem RoomClient.conclude_kept {recovery : RoomRecoveryState} {saves : Bool}
    (hkept : Kept size recovery saves) (forgets : List String) (envelope : MlsRelayMessage)
    (projected : Option ProjectedEvent) :
    ∃ history, c.conclude size session recovery forgets envelope projected saves =
      ({ c with
          session := some { session with recovery := { recovery with history }, at_ := .idle }
          saved := some { recovery with history }
          forgotten := c.forgotten ++ forgets },
        (projected.map (RoomLogEvent.projected envelope)).toList ++
          [.returned envelope (.ok projected)]) := by
  have hsession : Kept size { session with recovery }.recovery saves := hkept
  exact RoomClient.persistThen_kept hsession envelope _

theorem RoomClient.begin_kept {envelope : MlsRelayMessage} {saves : Bool}
    (hkept : Kept size (session.recovery.mark envelope.id) saves) :
    ∃ history, c.begin size session envelope saves =
      ({ c with
          session := some { session with
            recovery := { session.recovery.mark envelope.id with history }
            at_ := .begun envelope }
          saved := some { session.recovery.mark envelope.id with history } }, []) := by
  have hsession : Kept size
      { session with recovery := session.recovery.mark envelope.id }.recovery saves := hkept
  obtain ⟨history, heq⟩ := RoomClient.persistThen_kept (c := c) hsession envelope fun c' ↦
    ({ c' with session := c'.session.map fun session ↦
      { session with at_ := .begun envelope } }, [])
  exact ⟨history, heq⟩

/-- An event is projected whose envelope was not. -/
theorem RoomInv.projects (h : RoomInv c log) (hidle : c.Idle) {envelope : MlsRelayMessage}
    (hfresh : envelope ∉ log.filterMap projectedOf)
    (hself : c.savedRecovery.processed envelope.id = true)
    (hothers : c.isOwn envelope = false → envelope.mlsMessage ∈ c.mls.applied)
    (event : ProjectedEvent) : RoomInv c (log ++ [.projected envelope event]) := by
  have hprojected : (log ++ [RoomLogEvent.projected envelope event]).filterMap projectedOf =
      log.filterMap projectedOf ++ [envelope] := List.filterMap_append
  have happlied : (log ++ [RoomLogEvent.projected envelope event]).filterMap appliedOf =
      log.filterMap appliedOf := filterMap_append_quiet fun e he ↦ by
    rw [List.mem_singleton.mp he]
    rfl
  have htransferred : (log ++ [RoomLogEvent.projected envelope event]).filterMap transferredOf =
      log.filterMap transferredOf := filterMap_append_quiet fun e he ↦ by
    rw [List.mem_singleton.mp he]
    rfl
  refine ⟨happlied.trans h.applied, h.appliedOnce, htransferred ▸ h.transferredOnce,
    htransferred ▸ h.staged, ?_, ?_, ?_, h.notAhead, ?_, fun hcalm ↦ h.unblocked hcalm.of_append⟩
  · rw [hprojected]
    refine List.nodup_append.mpr ⟨h.projectedOnce, List.nodup_singleton _, fun a ha b hb hab ↦ ?_⟩
    rw [hab, List.mem_singleton.mp hb] at ha
    exact hfresh ha
  · intro other hother hmine
    rcases List.mem_append.mp (hprojected ▸ hother) with hmem | hmem
    · exact h.own other hmem hmine
    · rw [List.mem_singleton.mp hmem]
      exact .inl hself
  · intro other hother hmine
    rcases List.mem_append.mp (hprojected ▸ hother) with hmem | hmem
    · exact h.others other hmem hmine
    · rw [List.mem_singleton.mp hmem] at hmine ⊢
      exact hothers hmine
  · intro session hsession
    rw [hidle session hsession]
    trivial

theorem RoomInv.logs (h : RoomInv c log) (hidle : c.Idle) (hnew : ∀ e ∈ new, e.Quiet) :
    RoomInv c (log ++ new) :=
  h.quiet rfl rfl rfl (fun _ ↦ id) hnew h.notAhead
    (fun session hsession ↦ by rw [hidle session hsession]; trivial)
    (fun hcalm ↦ h.unblocked hcalm.of_append)

/-- The end of `open_room_event`, when the save succeeds. What is projected was not before, and a
ciphertext of others has been applied. -/
theorem RoomInv.conclude (h : RoomInv c log) {recovery : RoomRecoveryState} {saves : Bool}
    (hkept : Kept size recovery saves) {forgets : List String} {envelope : MlsRelayMessage}
    {projected : Option ProjectedEvent}
    (hold : ∀ id, c.savedRecovery.processed id = true →
      recovery.processed id = true ∨ id ∈ forgets)
    (hself : recovery.processed envelope.id = true)
    (hfresh : projected.isSome → envelope ∉ log.filterMap projectedOf)
    (hothers : projected.isSome → c.isOwn envelope = false → envelope.mlsMessage ∈ c.mls.applied)
    (hpending : Undisturbed log → recovery.pendingEnvelopeId = none) :
    RoomInv (c.conclude size session recovery forgets envelope projected saves).1
      (log ++ (c.conclude size session recovery forgets envelope projected saves).2) := by
  obtain ⟨history, heq⟩ : ∃ history, c.conclude size session recovery forgets envelope projected
      saves = _ := RoomClient.conclude_kept hkept forgets envelope projected
  rw [heq]
  generalize hc' : ({ c with
    session := some { session with recovery := { recovery with history }, at_ := .idle }
    saved := some { recovery with history }
    forgotten := c.forgotten ++ forgets } : RoomClient) = c'
  have hidle : c'.Idle := by
    subst hc'
    rintro _ ⟨⟩
    rfl
  have hsaved : RoomInv c' log := by
    subst hc'
    rw [← List.append_nil log]
    refine h.quiet rfl rfl rfl ?_ (fun _ he ↦ (List.not_mem_nil he).elim) ?_ ?_
      fun hcalm _ ↦ hpending hcalm.of_append
    · rintro id (hid | hid)
      · exact (hold id hid).imp_right (List.mem_append_right _)
      · exact .inr (List.mem_append_left _ hid)
    · rintro _ ⟨⟩
      rfl
    · rintro _ ⟨⟩
      trivial
  have hreturned : ∀ e ∈ [RoomLogEvent.returned envelope (.ok projected)], e.Quiet :=
    fun e he ↦ List.mem_singleton.mp he ▸ quiet_returned _ _
  cases projected with
  | none => exact hsaved.logs hidle hreturned
  | some event =>
    have hshown : RoomInv c' (log ++ [RoomLogEvent.projected envelope event]) := by
      refine hsaved.projects hidle (hfresh rfl) ?_ ?_ event
      · subst hc'
        exact hself
      · subst hc'
        exact hothers rfl
    have hdone := hshown.logs hidle hreturned
    rwa [List.append_assoc] at hdone

/-! ### The steps -/

theorem RoomClient.route_ownTransfer {envelope : MlsRelayMessage}
    (h : c.route session envelope = .ownTransfer) :
    c.isOwn envelope = true ∧ session.recovery.processed envelope.id = false := by
  unfold RoomClient.route at h
  grind

theorem RoomClient.route_begins {envelope : MlsRelayMessage}
    (h : c.route session envelope = .begins) : c.isOwn envelope = false := by
  unfold RoomClient.route at h
  grind

theorem not_marked_idle (h : session.at_ = .idle) : ¬session.at_.Marked := by
  rw [h]
  exact id

/-- The session is the one that is saved, at rest or at an own transfer. -/
theorem RoomInv.unmarked (h : RoomInv c log) (hsession : c.session = some session)
    (hat : ¬session.at_.Marked) (hcalm : Undisturbed log) :
    session.recovery.pendingEnvelopeId = none := by
  rw [h.notAhead session hsession]
  refine h.unblocked hcalm fun session' h' ↦ ?_
  rwa [← Option.some.inj (hsession.symm.trans h')]

theorem RoomInv.start (h : RoomInv c log) (room : RoomRecord) (valid : Bool) :
    RoomInv (c.start room valid).1 (log ++ (c.start room valid).2) := by
  have hfails (error : ChatError) : RoomInv c (log ++ [.startFailed error]) :=
    h.quiet rfl rfl rfl (fun _ ↦ id) (fun e he ↦ List.mem_singleton.mp he ▸ ⟨rfl, rfl, rfl⟩)
      h.notAhead h.standing fun hcalm ↦ h.unblocked hcalm.of_append
  unfold RoomClient.start
  split
  · rw [List.append_nil]
    exact h
  · rename_i hnone
    split
    · exact hfails _
    · split
      · exact hfails _
      · rename_i hpending
        refine h.quiet rfl rfl rfl (fun _ ↦ id)
          (fun e he ↦ List.mem_singleton.mp he ▸ ⟨rfl, rfl, rfl⟩) ?_ ?_ ?_
        · rintro _ ⟨⟩
          rfl
        · rintro _ ⟨⟩
          trivial
        · intro _ _
          show c.savedRecovery.pendingEnvelopeId = none
          simpa using hpending

/-- A staged transfer is merged. -/
theorem RoomInv.merges (h : RoomInv c log) {id : String} (hqueued : id ∈ c.mls.pending) :
    RoomInv { c with mls := { c.mls with pending := c.mls.pending.erase id } }
      (log ++ [.transferred id]) := by
  have hperm : (log.filterMap transferredOf ++ [id] ++ c.mls.pending.erase id).Perm
      (log.filterMap transferredOf ++ c.mls.pending) := by
    rw [List.append_assoc]
    exact (List.perm_cons_erase hqueued).symm.append_left _
  have htransferred : (log ++ [RoomLogEvent.transferred id]).filterMap transferredOf =
      log.filterMap transferredOf ++ [id] := List.filterMap_append
  have happlied : (log ++ [RoomLogEvent.transferred id]).filterMap appliedOf =
      log.filterMap appliedOf := filterMap_append_quiet fun e he ↦ by
    rw [List.mem_singleton.mp he]
    rfl
  have hprojected : (log ++ [RoomLogEvent.transferred id]).filterMap projectedOf =
      log.filterMap projectedOf := filterMap_append_quiet fun e he ↦ by
    rw [List.mem_singleton.mp he]
    rfl
  exact {
    applied := happlied.trans h.applied
    appliedOnce := h.appliedOnce
    transferredOnce := by
      rw [htransferred]
      exact hperm.nodup_iff.mpr h.transferredOnce
    staged := by
      rw [htransferred]
      exact fun id hid ↦ h.staged id (hperm.mem_iff.mp hid)
    projectedOnce := hprojected ▸ h.projectedOnce
    own := hprojected ▸ h.own
    others := hprojected ▸ h.others
    notAhead := h.notAhead
    standing := by
      intro session hsession
      have hat := h.standing session hsession
      revert hat
      cases session.at_ <;> simp only [Standing, hprojected] <;> exact fun h ↦ h
    unblocked := fun hcalm ↦ h.unblocked hcalm.of_append }

theorem RoomInv.recovering (h : RoomInv c log) (hsession : c.session = some session)
    (hidle : session.at_ = .idle) {envelope : MlsRelayMessage} (hown : c.isOwn envelope = true)
    (hfresh : envelope ∉ log.filterMap projectedOf) :
    RoomInv { c with session := some { session with at_ := .recovered envelope } } log := by
  rw [← List.append_nil log]
  refine h.quiet rfl rfl rfl (fun _ ↦ id) (fun _ he ↦ (List.not_mem_nil he).elim) ?_ ?_ ?_
  · rintro _ ⟨⟩
    exact h.notAhead session hsession
  · rintro _ ⟨⟩
    exact ⟨hown, hfresh⟩
  · intro hcalm _
    show c.savedRecovery.pendingEnvelopeId = none
    rw [← h.notAhead session hsession]
    exact h.unmarked hsession (not_marked_idle hidle) hcalm.of_append

theorem RoomInv.recoverExact (h : RoomInv c log) (hsession : c.session = some session)
    (hidle : session.at_ = .idle) {envelope : MlsRelayMessage} (hown : c.isOwn envelope = true)
    (hfresh : envelope ∉ log.filterMap projectedOf) (recovers : Bool) :
    RoomInv (c.recoverExact session envelope recovers).1
      (log ++ (c.recoverExact session envelope recovers).2) := by
  unfold RoomClient.recoverExact
  dsimp only
  split
  · rename_i hqueued
    split
    · have hprojected : (log ++ [RoomLogEvent.transferred envelope.id]).filterMap projectedOf =
          log.filterMap projectedOf := List.filterMap_append.trans (List.append_nil _)
      have hmerged := h.merges hqueued
      exact hmerged.recovering hsession hidle hown (hprojected ▸ hfresh)
    · exact h.returns hsession (not_marked_idle hidle) _ _
  · rw [List.append_nil]
    exact h.recovering hsession hidle hown hfresh

theorem RoomInv.receive (h : RoomInv c log) {envelope : MlsRelayMessage} {recovers saves : Bool}
    (hP : Unhindered size parse c (.receive envelope recovers saves)) :
    RoomInv (c.receive size envelope recovers saves).1
      (log ++ (c.receive size envelope recovers saves).2) := by
  unfold RoomClient.receive
  cases hsession : c.session with
  | none =>
    rw [List.append_nil]
    exact h
  | some session =>
    dsimp only
    split
    · rw [List.append_nil]
      exact h
    · rename_i hidle
      rw [not_not] at hidle
      have hsaved := h.notAhead session hsession
      have hwelcome : Welcomes size c session envelope saves := hP session hsession hidle
      unfold Welcomes at hwelcome
      cases hroute : c.route session envelope with
      | skips => exact h.returns hsession (not_marked_idle hidle) _ _
      | rejects error => exact h.returns hsession (not_marked_idle hidle) _ _
      | ownTransfer =>
        rw [hroute] at hwelcome
        obtain ⟨hown, hnew⟩ := RoomClient.route_ownTransfer hroute
        refine h.recoverExact hsession hidle hown (fun hmem ↦ ?_) recovers
        rcases h.own envelope hmem hown with hprocessed | hforgotten
        · rw [← hsaved, hnew] at hprocessed
          exact Bool.false_ne_true hprocessed
        · exact hwelcome hforgotten
      | ownEcho =>
        rw [hroute] at hwelcome
        refine h.conclude hwelcome (fun id hid ↦ ?_)
          (RoomRecoveryState.processed_remember _ _ _) nofun nofun fun hcalm ↦ ?_
        · exact RoomRecoveryState.processed_or_dropped _ _ _ (hsaved ▸ hid)
        · rw [RoomRecoveryState.pendingEnvelopeId_remember]
          exact h.unmarked hsession (not_marked_idle hidle) hcalm
      | begins =>
        rw [hroute] at hwelcome
        obtain ⟨history, heq⟩ := RoomClient.begin_kept (c := c) hwelcome
        rw [heq]
        refine h.quiet rfl rfl rfl ?_ (fun _ he ↦ (List.not_mem_nil he).elim) ?_ ?_ ?_
        · intro id hid
          rw [← hsaved] at hid
          exact hid
        · rintro _ ⟨⟩
          rfl
        · rintro _ ⟨⟩
          exact ⟨RoomClient.route_begins hroute, rfl⟩
        · exact fun _ hmarked ↦ (hmarked _ rfl trivial).elim

theorem RoomInv.process (h : RoomInv c log)
    {incoming : Option (Option (Option AuthenticatedData × String))}
    (hP : Unhindered size parse c (.process incoming)) :
    RoomInv (c.process incoming).1 (log ++ (c.process incoming).2) := by
  unfold RoomClient.process
  cases hsession : c.session with
  | none =>
    rw [List.append_nil]
    exact h
  | some session =>
    have htakes : Takes c session incoming := hP session hsession
    have hstanding := h.standing session hsession
    unfold Takes at htakes
    dsimp only
    cases hat : session.at_ with
    | idle =>
      rw [List.append_nil]
      exact h
    | processed envelope opened =>
      rw [List.append_nil]
      exact h
    | recovered envelope =>
      rw [List.append_nil]
      exact h
    | begun envelope =>
      rw [hat] at htakes hstanding
      obtain ⟨hother, hpending⟩ := hstanding
      cases incoming with
      | none => exact htakes.elim
      | some message =>
        obtain ⟨hnew, hopens⟩ := htakes
        dsimp only
        rw [if_neg hnew]
        cases hopened : RoomClient.openedOf message with
        | error error =>
          rw [hopened] at hopens
          exact (Bool.false_ne_true hopens).elim
        | ok opened =>
          have happlied : (log ++ [RoomLogEvent.applied envelope.mlsMessage]).filterMap appliedOf =
              log.filterMap appliedOf ++ [envelope.mlsMessage] := List.filterMap_append
          have htransferred : (log ++ [RoomLogEvent.applied envelope.mlsMessage]).filterMap
              transferredOf = log.filterMap transferredOf :=
            List.filterMap_append.trans (List.append_nil _)
          have hprojected : (log ++ [RoomLogEvent.applied envelope.mlsMessage]).filterMap
              projectedOf = log.filterMap projectedOf :=
            List.filterMap_append.trans (List.append_nil _)
          exact {
            applied := by rw [happlied, h.applied]
            appliedOnce := by
              refine List.nodup_append.mpr
                ⟨h.appliedOnce, List.nodup_singleton _, fun a ha b hb hab ↦ hnew ?_⟩
              rw [← List.mem_singleton.mp hb, ← hab]
              exact ha
            transferredOnce := htransferred ▸ h.transferredOnce
            staged := htransferred ▸ h.staged
            projectedOnce := hprojected ▸ h.projectedOnce
            own := hprojected ▸ h.own
            others := by
              rw [hprojected]
              exact fun other hmem hmine ↦ List.mem_append_left _ (h.others other hmem hmine)
            notAhead := by
              rintro _ ⟨⟩
              exact h.notAhead session hsession
            standing := by
              rintro _ ⟨⟩
              -- an envelope whose ciphertext is new has not been projected
              have hfresh : envelope ∉ log.filterMap projectedOf :=
                fun hmem ↦ hnew (h.others envelope hmem hother)
              exact ⟨hother, hpending, List.mem_append_right _ (List.mem_singleton_self _),
                hprojected ▸ hfresh⟩
            unblocked := fun _ hmarked ↦ (hmarked _ rfl trivial).elim }

@[simp] theorem pendingEnvelopeId_finished (r : RoomRecoveryState) (handoffs : HandoffState)
    (envelope : MlsRelayMessage) (projected : Option ProjectedEvent) :
    (RoomClient.finished r handoffs envelope projected).pendingEnvelopeId = none := rfl

theorem RoomInv.finish (h : RoomInv c log) {group : Option HostGroupState} {saves : Bool}
    (hP : Unhindered size parse c (.finish group saves)) :
    RoomInv (c.finish size parse group saves).1 (log ++ (c.finish size parse group saves).2) := by
  unfold RoomClient.finish
  cases hsession : c.session with
  | none =>
    rw [List.append_nil]
    exact h
  | some session =>
    have hfinishes : Finishes size parse session group saves := hP session hsession
    have hstanding := h.standing session hsession
    have hsaved := h.notAhead session hsession
    unfold Finishes at hfinishes
    dsimp only
    cases hat : session.at_ with
    | idle =>
      rw [List.append_nil]
      exact h
    | begun envelope =>
      rw [List.append_nil]
      exact h
    | processed envelope opened =>
      rw [hat] at hfinishes hstanding
      obtain ⟨hother, hpending, happlied, hfresh⟩ := hstanding
      dsimp only at hfinishes ⊢
      cases hprojection : RoomClient.projection parse session.room session.recovery.handoffs envelope
          opened group with
      | error error =>
        rw [hprojection] at hfinishes
        exact hfinishes.elim
      | ok projection =>
        rw [hprojection] at hfinishes
        obtain ⟨projected, handoffs⟩ := projection
        dsimp only at hfinishes ⊢
        rw [if_neg (not_not.mpr (hsaved ▸ hpending))]
        refine h.conclude hfinishes (fun id hid ↦ ?_) ?_ (fun _ ↦ hfresh) (fun _ _ ↦ happlied)
          fun _ ↦ pendingEnvelopeId_finished _ _ _ _
        · rw [← RoomRecoveryState.dropped_handoffs _ handoffs]
          exact RoomRecoveryState.processed_or_dropped { session.recovery with handoffs }
            envelope.id projected (hsaved ▸ hid)
        · exact RoomRecoveryState.processed_remember { session.recovery with handoffs } _ _
    | recovered envelope =>
      rw [hat] at hfinishes hstanding
      obtain ⟨hown, hfresh⟩ := hstanding
      have hunmarked : ¬session.at_.Marked := by
        rw [hat]
        exact id
      dsimp only at hfinishes ⊢
      cases hrecovers : RoomClient.recoverTransfer session.recovery.handoffs envelope group with
      | error error => exact h.returns hsession hunmarked _ _
      | ok recovered =>
        rw [hrecovers] at hfinishes
        obtain ⟨event, handoffs⟩ := recovered
        dsimp only at hfinishes ⊢
        refine h.conclude hfinishes (fun id hid ↦ ?_) ?_ (fun _ ↦ hfresh) (fun _ hmine ↦ ?_)
          fun hcalm ↦ ?_
        · rw [← RoomRecoveryState.dropped_handoffs _ handoffs]
          exact RoomRecoveryState.processed_or_dropped { session.recovery with handoffs }
            envelope.id (some event) (hsaved ▸ hid)
        · exact RoomRecoveryState.processed_remember { session.recovery with handoffs } _ _
        · rw [hown] at hmine
          exact (Bool.false_ne_true hmine.symm).elim
        · rw [RoomRecoveryState.pendingEnvelopeId_remember]
          exact h.unmarked hsession hunmarked hcalm

theorem RoomInv.updateRoom (h : RoomInv c log) (room : RoomRecord) :
    RoomInv (c.updateRoom room).1 (log ++ (c.updateRoom room).2) := by
  unfold RoomClient.updateRoom
  cases hsession : c.session with
  | none =>
    rw [List.append_nil]
    exact h
  | some session =>
    dsimp only
    split
    · rename_i hguard
      have hidle : session.at_ = .idle := by
        simp only [Bool.and_eq_true, decide_eq_true_eq] at hguard
        exact hguard.1.1
      refine h.quiet rfl rfl rfl (fun _ ↦ id) (fun _ he ↦ (List.not_mem_nil he).elim) ?_ ?_ ?_
      · rintro _ ⟨⟩
        exact h.notAhead session hsession
      · rintro _ ⟨⟩
        exact h.standing session hsession
      · intro hcalm _
        show c.savedRecovery.pendingEnvelopeId = none
        rw [← h.notAhead session hsession]
        exact h.unmarked hsession (not_marked_idle hidle) hcalm.of_append
    · rw [List.append_nil]
      exact h

theorem RoomInv.stage (h : RoomInv c log) (id : String) :
    RoomInv (c.stage id).1 (log ++ (c.stage id).2) := by
  unfold RoomClient.stage
  split
  · rw [List.append_nil]
    exact h
  · rename_i hnew
    rw [List.append_nil]
    exact { h with
      transferredOnce := by
        show (log.filterMap transferredOf ++ (c.mls.pending ++ [id])).Nodup
        rw [← List.append_assoc]
        refine List.nodup_append.mpr
          ⟨h.transferredOnce, List.nodup_singleton _, fun a ha b hb hab ↦ hnew ?_⟩
        rw [← List.mem_singleton.mp hb, ← hab]
        exact h.staged a ha
      staged := by
        intro other hother
        rw [← List.append_assoc] at hother
        exact List.mem_append.mpr ((List.mem_append.mp hother).imp_left (h.staged other)) }

theorem RoomInv.acknowledge (h : RoomInv c log) (id : String) :
    RoomInv (c.acknowledge id).1 (log ++ (c.acknowledge id).2) := by
  unfold RoomClient.acknowledge
  split
  · rename_i hqueued
    exact h.merges hqueued
  · rw [List.append_nil]
    exact h

/-- What is saved outlasts the process. -/
theorem RoomInv.crash (h : RoomInv c log) :
    RoomInv { c with session := none } (log ++ [.crashed]) :=
  h.quiet rfl rfl rfl (fun _ ↦ id) (fun _ he ↦ List.mem_singleton.mp he ▸ ⟨rfl, rfl, rfl⟩)
    (fun _ h ↦ (Option.some_ne_none _ h.symm).elim) (fun _ h ↦ (Option.some_ne_none _ h.symm).elim)
    fun hcalm ↦ (hcalm.2 (List.mem_append_right _ (List.mem_singleton_self _))).elim

theorem RoomInv.step (h : RoomInv c log) (action : RoomAction)
    (hP : Unhindered size parse c action) :
    RoomInv (RoomClient.step size parse c action).1
      (log ++ (RoomClient.step size parse c action).2) := by
  cases action with
  | start room valid => exact h.start room valid
  | receive envelope recovers saves => exact h.receive hP
  | process incoming => exact h.process hP
  | finish group saves => exact h.finish hP
  | updateRoom room => exact h.updateRoom room
  | stage id => exact h.stage id
  | acknowledge id => exact h.acknowledge id
  | crash => exact h.crash

/-- **Along unhindered steps, the room log is safe.** -/
theorem roomSafe_run (size : RoomRecoveryState → ℕ) (parse : String → String → Option RoomEvent)
    (userId deviceId : String) (actions : List RoomAction)
    (h : Machine.Along (RoomClient.step size parse) (Unhindered size parse) { userId, deviceId }
      actions) :
    RoomSafe (Machine.run (RoomClient.step size parse) { userId, deviceId } actions).1
      (Machine.run (RoomClient.step size parse) { userId, deviceId } actions).2 := by
  have hrun := Machine.run_invariant (fun _ _ action h hP ↦ h.step action hP)
    (roomInv_fresh userId deviceId) h
  exact hrun.safe

/-! ### A message that blocks the room -/

def lobby : RoomRecord where
  id := "room_1"
  teamId := "team_1"
  name := "Lobby"
  host := "host"
  hostStatus := .active
  approvalPolicy := .askEveryTurn

/-- A chat message of a member. -/
def chatEnvelope : MlsRelayMessage where
  id := "message"
  teamId := "team_1"
  roomId := "room_1"
  senderUserId := "github:member"
  senderDeviceId := "device_2"
  createdAt := "2026-07-20T00:00:00.000Z"
  messageType := .application
  epochHint := 1
  mlsMessage := "AAAA"

def chatData : AuthenticatedData where
  version := 1
  epoch := 1
  messageId := "message"
  teamId := "team_1"
  roomId := "room_1"
  senderUserId := "github:member"
  senderDeviceId := "device_2"
  createdAt := "2026-07-20T00:00:00.000Z"
  kind := "chat.message"

/-- A parser for chat messages whose text is their author. -/
def parseAuthor (kind payload : String) : Option RoomEvent :=
  if kind = "chat.message" then
    some (.chatMessage { authorUserId := payload, role := .human, body := "Hello" })
  else none

/-- A session opens the chat message of the member, in the name of an author. -/
def chatRun (author : String) : List RoomAction :=
  [.start lobby true, .receive chatEnvelope true true,
    .process (some (some (some chatData, author))), .finish none true]

/-- What the run leaves is safe. -/
def ChatSafe (author : String) : Prop :=
  RoomSafe
    (Machine.run (RoomClient.step (fun _ ↦ 0) parseAuthor)
      { userId := "github:me", deviceId := "device_1" } (chatRun author)).1
    (Machine.run (RoomClient.step (fun _ ↦ 0) parseAuthor)
      { userId := "github:me", deviceId := "device_1" } (chatRun author)).2

theorem roomSafe_chat : ChatSafe "github:member" :=
  roomSafe_run (fun _ ↦ 0) parseAuthor "github:me" "device_1" (chatRun "github:member")
    (by decide)

/-- A member who speaks in another's name leaves the mark of `begin_incoming` behind. -/
theorem not_roomSafe_foreign : ¬ChatSafe "github:other" := by
  intro h
  have hcalm : Undisturbed (Machine.run (RoomClient.step (fun _ ↦ 0) parseAuthor)
      { userId := "github:me", deviceId := "device_1" } (chatRun "github:other")).2 := by
    decide
  have hfails := h.restarts hcalm (fun session hsession ↦ ?_) lobby true
  · exact hfails (by decide)
  · have hidle : ∀ session ∈ (Machine.run (RoomClient.step (fun _ ↦ 0) parseAuthor)
        { userId := "github:me", deviceId := "device_1" } (chatRun "github:other")).1.session,
        session.at_ = .idle := by
      decide
    exact hidle session hsession

end MultAIplayer.Cli
