import MultAIplayer.Desktop.CodexQueue
import MultAIplayer.Lib.Replicas

/-!
# Codex queues across replicas

The members of a room, each with its own runtime, and the log of Codex messages that the relay
accepts. What a member does at its own replica (`LocalAction`) runs other code than what the
message it publishes does at the others (`receive`).

## Where the two differ

`started`, `completed` and `failed` only append to a list of events at the members
(`receive_turn_queuedApprovals`), and a promotion, an approval, a drop or a reset takes turns out of
the host's queue without a queue event. So a turn that was announced and then ran stays in the
members' queues (`started_turn_stays_queued`). As long as every change of a queue is one that its
published event makes everywhere, queues agree and hold no finished turn
(`queueAgreement_of_together`).

## Turns, not records

Replicas are compared by the ids of their turns: the requester stamps `queuedAt` itself, the others
take it from the event.
-/

namespace MultAIplayer.Desktop

open Replicas

/-! ### Messages -/

/-- A Codex message that the routing has accepted. -/
inductive CodexMessage
  | queue (event : CodexQueuePlaintextPayload)
  | turn (event : CodexRoomEvent)
  deriving DecidableEq

/-- Routing: a lifecycle event is appended to the events and does nothing else. -/
@[grind =] def receive (roomId : String) (runtime : CodexRuntimeRoomState) :
    CodexMessage → CodexRuntimeRoomState
  | .queue event => event.applyTo roomId runtime
  | .turn event => runtime.appendCodexEvent event

/-- `handleCodexQueueEvent` is the routing of a queue message. -/
theorem handleCodexQueueEvent_receive (event : CodexQueuePlaintextPayload) (roomId : String)
    (store : AppStoreState) :
    (handleCodexQueueEvent event roomId store).codexRuntimeByRoom roomId =
      receive roomId (store.codexRuntimeByRoom roomId) (.queue event) :=
  handleCodexQueueEvent_runtime event roomId store

/-- **No lifecycle event takes a turn out of a member's queue.** -/
theorem receive_turn_queuedApprovals (roomId : String) (runtime : CodexRuntimeRoomState)
    (event : CodexRoomEvent) :
    (receive roomId runtime (.turn event)).queuedApprovals = runtime.queuedApprovals := rfl

/-! ### Local actions -/

/-- What a publication takes from its surroundings. -/
structure Publication where
  connected : Bool
  localUserName : String
  localUserId : String
  queueEventId : String
  createdAt : String
  deriving DecidableEq

/-- `publishCodexQueueEvent`; without a connection nothing is published. -/
@[grind =]
def publishCodexQueueEvent (p : Publication) (turnId : String) (action : CodexQueueAction)
    (triggerMessageId reason : Option String) (queuePosition : Option ℕ) (queueSize : ℕ) :
    List CodexMessage :=
  if p.connected then
    [.queue { queueEventId := p.queueEventId, turnId, action, requestedBy := p.localUserName,
              requestedByUserId := p.localUserId, triggerMessageId, reason, queuePosition,
              queueSize, createdAt := p.createdAt }]
  else []

/-- What `handleCodexInvoke` finds out before it touches the queue. -/
structure InvokeContext where
  canInvoke : Bool
  neverHost : Bool
  isActiveHost : Bool
  steers : Bool
  actionable : Bool
  deriving DecidableEq

/-- The approval that a turn becomes. -/
def QueuedCodexTurn.approval (turn : QueuedCodexTurn) : PendingCodexApproval where
  turnId := turn.turnId
  roomId := turn.roomId
  requestedBy := turn.requestedBy
  requestedByUserId := turn.requestedByUserId
  queuedAt := turn.queuedAt

def handleCodexInvoke (c : InvokeContext) (p : Publication) (turn : QueuedCodexTurn)
    (runtime : CodexRuntimeRoomState) : CodexRuntimeRoomState × List CodexMessage :=
  let size := runtime.queuedApprovals.turns.length
  if ¬c.canInvoke then
    ((if c.neverHost then runtime.setPendingCodexApproval none else runtime).setApprovalVisible
      false, [])
  else if runtime.running ∧ c.isActiveHost ∧ c.steers then (runtime, [])
  else if runtime.pendingApproval.isSome ∨ runtime.running ∨ 0 < size then
    if 5 ≤ size then (runtime, [])
    else (runtime.enqueueCodexApproval turn,
      publishCodexQueueEvent p turn.turnId .queued turn.triggerMessageId none (some (size + 1))
        (size + 1))
  else if ¬c.actionable then (runtime.setApprovalVisible false, [])
  else
    (((runtime.enqueueCodexApproval turn).setPendingCodexApproval
        (if c.isActiveHost then some turn.approval else none)).setApprovalVisible c.isActiveHost,
      publishCodexQueueEvent p turn.turnId .queued turn.triggerMessageId none (some 1) 1)

/-- What the promotion of a turn comes to. -/
inductive PromotionCheck
  | expired
  | unavailable
  | empty
  | ready
  deriving DecidableEq

/-- `promoteNextCodexApproval`: the head of the queue leaves it, and the next one is looked at when
the head was expired or had nothing to send. -/
@[grind =] def promoteTurns (check : QueuedCodexTurn → PromotionCheck) :
    List QueuedCodexTurn → CodexRuntimeRoomState → CodexRuntimeRoomState
  | [], runtime => runtime
  | nextTurn :: rest, runtime =>
    let removed := runtime.removeQueuedCodexApproval nextTurn.turnId
    match check nextTurn with
    | .expired => promoteTurns check rest removed
    | .empty => promoteTurns check rest removed
    | .unavailable => removed
    | .ready => (removed.setPendingCodexApproval (some nextTurn.approval)).setApprovalVisible true

def promoteNextCodexApproval (check : QueuedCodexTurn → PromotionCheck)
    (runtime : CodexRuntimeRoomState) : CodexRuntimeRoomState :=
  promoteTurns check runtime.queuedApprovals.turns runtime

/-- How the checks of `approveCodexTurn` end. -/
inductive ApprovalCheck
  | roomGone
  | locked
  | neverHost
  | notActiveHost
  | unsupportedCodex
  | configPending
  | emptyContext
  | approved
  deriving DecidableEq

/-- `approveCodexTurn` up to the start of the turn. -/
def approveCodexTurn (check : ApprovalCheck) (promotion : QueuedCodexTurn → PromotionCheck)
    (requested : Option PendingCodexApproval) (runtime : CodexRuntimeRoomState) :
    CodexRuntimeRoomState :=
  let cleared := (runtime.setPendingCodexApproval none).setApprovalVisible false
  match check with
  | .roomGone | .locked | .neverHost => cleared
  | .notActiveHost => runtime.setApprovalVisible false
  | .unsupportedCodex => runtime.setApprovalVisible true
  | .configPending => runtime
  | .emptyContext => promoteNextCodexApproval promotion cleared
  | .approved =>
    match requested.or runtime.pendingApproval with
    | some approval => (cleared.removeQueuedCodexApproval approval.turnId).setCodexRunning true
    | none => cleared.setCodexRunning true

/-- `onDenyApproval`. -/
def onDenyApproval (promotion : QueuedCodexTurn → PromotionCheck) (p : Publication)
    (runtime : CodexRuntimeRoomState) : CodexRuntimeRoomState × List CodexMessage :=
  let cleared := (runtime.setPendingCodexApproval none).setApprovalVisible false
  match runtime.pendingApproval with
  | some denied =>
    (promoteNextCodexApproval promotion (cleared.removeQueuedCodexApproval denied.turnId),
      publishCodexQueueEvent p denied.turnId .dropped none
        (some (denied.requestedBy ++ "'s Codex proposal was declined by the active host.")) none 0)
  | none => (promoteNextCodexApproval promotion cleared, [])

/-- `onCancelQueuedCodexTurn`. -/
def onCancelQueuedCodexTurn (p : Publication) (turnId : String)
    (runtime : CodexRuntimeRoomState) : CodexRuntimeRoomState × List CodexMessage :=
  (runtime.removeQueuedCodexApproval turnId,
    publishCodexQueueEvent p turnId .cancelled none (some "Queued Codex turn cancelled.") none 0)

/-- What a member does at its own replica. -/
inductive LocalAction
  | invoke (c : InvokeContext) (p : Publication) (turn : QueuedCodexTurn)
  | promote (promotion : QueuedCodexTurn → PromotionCheck)
  | approve (check : ApprovalCheck) (promotion : QueuedCodexTurn → PromotionCheck)
      (requested : Option PendingCodexApproval)
  | deny (promotion : QueuedCodexTurn → PromotionCheck) (p : Publication)
  | cancel (p : Publication) (turnId : String)
  /-- `publishCodexEvent`. -/
  | publish (connected : Bool) (event : CodexRoomEvent)
  /-- The `finally` of a turn. -/
  | finish (promotion : QueuedCodexTurn → PromotionCheck)
  | reset

def perform (runtime : CodexRuntimeRoomState) :
    LocalAction → CodexRuntimeRoomState × List CodexMessage
  | .invoke c p turn => handleCodexInvoke c p turn runtime
  | .promote promotion => (promoteNextCodexApproval promotion runtime, [])
  | .approve check promotion requested =>
    (approveCodexTurn check promotion requested runtime, [])
  | .deny promotion p => onDenyApproval promotion p runtime
  | .cancel p turnId => onCancelQueuedCodexTurn p turnId runtime
  | .publish connected event =>
    (runtime.appendCodexEvent event, if connected then [.turn event] else [])
  | .finish promotion =>
    (promoteNextCodexApproval promotion (runtime.setCodexRunning false), [])
  | .reset => (runtime.resetCodexApproval, [])

/-! ### The turns of a replica -/

/-- The ids of the turns that a replica holds. -/
@[ext] structure TurnIds where
  pending : Option String
  queued : List String
  deriving DecidableEq

namespace TurnIds

@[grind =] def enqueue (v : TurnIds) (turnId : String) : TurnIds :=
  if v.pending ≠ some turnId ∧ turnId ∉ v.queued ∧ v.queued.length < maxCodexQueueSize then
    { v with queued := v.queued ++ [turnId] }
  else v

/-- What a message does to the ids. -/
def apply (v : TurnIds) : CodexMessage → TurnIds
  | .queue event =>
    if event.action.announces then v.enqueue event.turnId
    else { pending := none, queued := v.queued.filter (· ≠ event.turnId) }
  | .turn _ => v

end TurnIds

@[grind =] def CodexRuntimeRoomState.turnIds (runtime : CodexRuntimeRoomState) : TurnIds where
  pending := runtime.pendingApproval.map PendingCodexApproval.turnId
  queued := runtime.queuedApprovals.turns.map QueuedCodexTurn.turnId

theorem turnIds_enqueue (runtime : CodexRuntimeRoomState) (turn : QueuedCodexTurn) :
    (runtime.enqueueCodexApproval turn).turnIds = runtime.turnIds.enqueue turn.turnId := by
  unfold CodexRuntimeRoomState.enqueueCodexApproval TurnIds.enqueue
  have hpending : runtime.pendingApproval.any (·.turnId = turn.turnId) = true ↔
      runtime.turnIds.pending = some turn.turnId := by
    cases hp : runtime.pendingApproval <;> simp [CodexRuntimeRoomState.turnIds, hp]
  have hlength : runtime.turnIds.queued.length = runtime.queuedApprovals.turns.length :=
    List.length_map _
  by_cases hp : runtime.turnIds.pending = some turn.turnId
  · rw [if_pos (hpending.mpr hp), if_neg fun hc ↦ hc.1 hp]
  · rw [if_neg fun hc ↦ hp (hpending.mp hc)]
    have hqueue := TurnQueue.enqueue_turns runtime.queuedApprovals turn
    ext1
    · show runtime.turnIds.pending = _
      split <;> rfl
    · show (runtime.queuedApprovals.enqueue turn).turns.map QueuedCodexTurn.turnId = _
      rw [hqueue, hlength]
      by_cases hnew : ¬runtime.queuedApprovals.Holds turn.turnId ∧
          runtime.queuedApprovals.turns.length < maxCodexQueueSize
      · rw [if_pos hnew, if_pos ⟨hp, hnew⟩, List.map_append]
        rfl
      · rw [if_neg hnew, if_neg fun hc ↦ hnew hc.2]
        rfl

theorem turnIds_remove (runtime : CodexRuntimeRoomState) (turnId : String) :
    (runtime.removeQueuedCodexApproval turnId).turnIds =
      { runtime.turnIds with queued := runtime.turnIds.queued.filter (· ≠ turnId) } := by
  ext1
  · rfl
  · show (runtime.queuedApprovals.turns.filter _).map QueuedCodexTurn.turnId = _
    rw [CodexRuntimeRoomState.turnIds, List.filter_map]
    rfl

theorem turnIds_receive (roomId : String) (runtime : CodexRuntimeRoomState)
    (message : CodexMessage) :
    (receive roomId runtime message).turnIds = runtime.turnIds.apply message := by
  cases message with
  | queue event =>
    show (event.applyTo roomId runtime).turnIds =
      if event.action.announces then runtime.turnIds.enqueue event.turnId
      else { pending := none, queued := runtime.turnIds.queued.filter (· ≠ event.turnId) }
    unfold CodexQueuePlaintextPayload.applyTo
    split
    · exact turnIds_enqueue runtime _
    · have hremoved := turnIds_remove runtime event.turnId
      ext1
      · rfl
      · show (runtime.removeQueuedCodexApproval event.turnId).turnIds.queued = _
        rw [hremoved]
  | turn event => rfl

/-! ### The room's network -/

section Network

variable {M : Type} [DecidableEq M] (roomId : String)

/-- The members of a room and their Codex messages. -/
def codexSystem : System M CodexRuntimeRoomState CodexMessage LocalAction TurnIds where
  perform _ := perform
  receive := receive roomId
  obs := CodexRuntimeRoomState.turnIds
  apply := TurnIds.apply
  obs_receive := turnIds_receive roomId

abbrev CodexNetwork (M : Type) := Network M CodexRuntimeRoomState CodexMessage

/-- Before any turn was asked for. -/
def noTurns : CodexNetwork M := System.start fun _ ↦ {}

/-- The message announces a turn. -/
def CodexMessage.Announces (turnId : String) : CodexMessage → Prop
  | .queue event => event.action.announces = true ∧ event.turnId = turnId
  | .turn _ => False

instance (turnId : String) : (m : CodexMessage) → Decidable (m.Announces turnId)
  | .queue _ => inferInstanceAs (Decidable (_ ∧ _))
  | .turn _ => inferInstanceAs (Decidable False)

/-- The message says that a turn was started, completed, failed, cancelled or dropped. -/
def CodexMessage.Finishes (turnId : String) : CodexMessage → Prop
  | .queue event => (event.action = .cancelled ∨ event.action = .dropped) ∧ event.turnId = turnId
  | .turn event => event.status ≠ .event ∧ event.turnId = turnId

instance (turnId : String) : (m : CodexMessage) → Decidable (m.Finishes turnId)
  | .queue _ => inferInstanceAs (Decidable (_ ∧ _))
  | .turn _ => inferInstanceAs (Decidable (_ ∧ _))

/-- A turn that has left is in no replica's queue, and replicas that have processed the same part
of the log, and nothing else, hold the same queue. -/
structure QueueAgreement (net : CodexNetwork M) : Prop where
  left : ∀ m, (net.replica m).cursor = net.log.length → ∀ x ∈ net.log, ∀ turnId,
    x.event.Finishes turnId → ¬(net.replica m).view.queuedApprovals.Holds turnId
  same : ∀ m n, displaced net.log (net.replica m) m = [] →
    displaced net.log (net.replica n) n = [] →
    (net.replica m).cursor = (net.replica n).cursor →
    (net.replica m).view.queuedApprovals.turns.map QueuedCodexTurn.turnId =
      (net.replica n).view.queuedApprovals.turns.map QueuedCodexTurn.turnId

/-- The queue that the whole log describes. -/
def logQueue (net : CodexNetwork M) : List String :=
  ((codexSystem (M := M) roomId).logView ⟨none, []⟩ net.log net.log.length).queued

/-- When the steps of a run keep turns and their ids apart: an announced turn has a new id, and an
event that finishes a turn is published when the turn is in no queue any more and its announcement
is not outstanding. -/
def KeepsTurnIds (net : CodexNetwork M) : Action M CodexMessage LocalAction → Prop
  | .act m a => ∀ e ∈ (perform (net.replica m).view a).2, ∀ turnId, e.Announces turnId →
      ∀ x ∈ net.log, ¬x.event.Finishes turnId
  | .accept m i => ∀ e ∈ (net.replica m).unsent[i]?, ∀ turnId, e.Finishes turnId →
      turnId ∉ (((codexSystem (M := M) roomId).logView ⟨none, []⟩ net.log
        net.log.length).apply e).queued ∧
      ∀ n, ∀ e' ∈ (net.replica n).unsent, ¬e'.Announces turnId
  | .post _ _ => False
  | _ => True

/-- The steps in which every change of a queue is one that its event makes everywhere. -/
def Together (net : CodexNetwork M) (a : Action M CodexMessage LocalAction) : Prop :=
  (codexSystem roomId).Allowed ⟨none, []⟩ net a ∧ KeepsTurnIds roomId net a

variable {roomId}

/-! ### Turns that have left -/

theorem TurnIds.mem_queued_apply {v : TurnIds} {e : CodexMessage} {turnId : String}
    (h : turnId ∈ (v.apply e).queued) : turnId ∈ v.queued ∨ e.Announces turnId := by
  cases e with
  | queue event =>
    by_cases hact : event.action.announces = true
    · have happly : v.apply (.queue event) = v.enqueue event.turnId := if_pos hact
      rw [happly, TurnIds.enqueue] at h
      split at h
      · rcases List.mem_append.mp h with hold | hnew
        · exact .inl hold
        · exact .inr ⟨hact, (List.mem_singleton.mp hnew).symm⟩
      · exact .inl h
    · have happly : v.apply (.queue event) = _ := if_neg hact
      rw [happly] at h
      exact .inl (List.mem_of_mem_filter h)
  | turn event => exact .inl h

theorem TurnIds.mem_queued_foldl {l : List CodexMessage} {v : TurnIds} {turnId : String}
    (h : turnId ∈ (l.foldl TurnIds.apply v).queued) :
    turnId ∈ v.queued ∨ ∃ e ∈ l, e.Announces turnId := by
  induction l generalizing v with
  | nil => exact .inl h
  | cons e l ih =>
    rcases ih h with hhead | ⟨e', hmem, hann⟩
    · exact (mem_queued_apply hhead).imp_right fun hann ↦ ⟨e, List.mem_cons_self, hann⟩
    · exact .inr ⟨e', List.mem_cons_of_mem _ hmem, hann⟩

theorem CodexMessage.Finishes.not_announces {e : CodexMessage} {turnId other : String}
    (h : e.Finishes turnId) : ¬e.Announces other := by
  cases e with
  | queue event =>
    intro hann
    obtain ⟨hact, -⟩ := hann
    rcases h.1 with hc | hd
    · rw [hc] at hact
      cases hact
    · rw [hd] at hact
      cases hact
  | turn event => exact id

/-- Turns that have left the log's queue do not come back. -/
structure TurnsLeft (roomId : String) (net : CodexNetwork M) : Prop where
  left : ∀ x ∈ net.log, ∀ turnId, x.event.Finishes turnId → turnId ∉ logQueue roomId net
  unsent : ∀ m, ∀ e ∈ (net.replica m).unsent, ∀ turnId, e.Announces turnId →
    ∀ x ∈ net.log, ¬x.event.Finishes turnId
  applied : ∀ x ∈ net.log, x.awaited = false

omit [DecidableEq M] in
theorem TurnsLeft.start : TurnsLeft roomId (noTurns (M := M)) where
  left := List.forall_mem_nil _
  unsent := fun _ ↦ List.forall_mem_nil _
  applied := List.forall_mem_nil _

omit [DecidableEq M] in
theorem logQueue_append (net : CodexNetwork M) (r : M → Replica CodexRuntimeRoomState CodexMessage)
    (y : LogEntry M CodexMessage) :
    logQueue roomId { log := net.log ++ [y], replica := r } =
      (((codexSystem (M := M) roomId).logView ⟨none, []⟩ net.log net.log.length).apply
        y.event).queued := by
  have hlast : (net.log ++ [y])[net.log.length]? = some y := List.getElem?_concat_length
  unfold logQueue
  dsimp only
  rw [List.length_append, List.length_singleton, System.logView_succ hlast,
    System.logView_append (Nat.le_refl _)]
  rfl

/-- The log takes an event. -/
theorem TurnsLeft.accept {net : CodexNetwork M} (h : TurnsLeft roomId net) {m : M} {i : ℕ}
    {e : CodexMessage} (he : (net.replica m).unsent[i]? = some e)
    (hkeep : ∀ turnId, e.Finishes turnId →
      turnId ∉ (((codexSystem (M := M) roomId).logView ⟨none, []⟩ net.log
        net.log.length).apply e).queued ∧
      ∀ n, ∀ e' ∈ (net.replica n).unsent, ¬e'.Announces turnId) :
    TurnsLeft roomId
      { System.update net m
          { net.replica m with unsent := (net.replica m).unsent.eraseIdx i } with
        log := net.log ++ [⟨m, e, false⟩] } where
  left := by
    intro x hx turnId hfin
    rw [logQueue_append]
    rcases List.mem_append.mp hx with hold | hnew
    · intro hmem
      rcases TurnIds.mem_queued_apply hmem with hin | hann
      · exact h.left x hold turnId hfin hin
      · exact h.unsent m e (List.mem_of_getElem? he) turnId hann x hold hfin
    · obtain rfl := List.mem_singleton.mp hnew
      exact (hkeep turnId hfin).1
  unsent := by
    intro n e' he' turnId hann x hx hfin
    have hmem : e' ∈ (net.replica n).unsent := by
      by_cases hn : n = m
      · subst hn
        rw [show (System.update net n _).replica n = _ from System.update_self net n _] at he'
        exact List.mem_of_mem_eraseIdx he'
      · rwa [show (System.update net m _).replica n = _ from System.update_of_ne hn] at he'
    rcases List.mem_append.mp hx with hold | hnew
    · exact h.unsent n e' hmem turnId hann x hold hfin
    · obtain rfl := List.mem_singleton.mp hnew
      exact (hkeep turnId hfin).2 n e' hmem hann
  applied := by
    intro x hx
    rcases List.mem_append.mp hx with hold | hnew
    · exact h.applied x hold
    · obtain rfl := List.mem_singleton.mp hnew
      rfl

/-- A step of one replica that leaves the log as it is and brings only new turns. -/
theorem TurnsLeft.update {net : CodexNetwork M} (h : TurnsLeft roomId net) {m : M}
    {r : Replica CodexRuntimeRoomState CodexMessage}
    (hr : ∀ e ∈ r.unsent, e ∈ (net.replica m).unsent ∨ ∀ turnId, e.Announces turnId →
      ∀ x ∈ net.log, ¬x.event.Finishes turnId) :
    TurnsLeft roomId (System.update net m r) where
  left := h.left
  unsent := by
    intro n e he turnId hann
    by_cases hn : n = m
    · subst hn
      rw [System.update_self] at he
      rcases hr e he with hold | hnew
      · exact h.unsent n e hold turnId hann
      · exact hnew turnId hann
    · rw [System.update_of_ne hn] at he
      exact h.unsent n e he turnId hann
  applied := h.applied

theorem TurnsLeft.next {net : CodexNetwork M} (h : TurnsLeft roomId net)
    {a : Action M CodexMessage LocalAction} (ha : KeepsTurnIds roomId net a) :
    TurnsLeft roomId ((codexSystem roomId).next net a) := by
  cases a with
  | act m a =>
    refine h.update fun e he ↦ ?_
    exact (List.mem_append.mp he).imp_right fun hmade ↦ ha e hmade
  | accept m i =>
    unfold System.next
    dsimp only
    split
    · next e he => exact h.accept he (ha e he)
    · exact h
  | reject m i => exact h.update fun e he ↦ .inl (List.mem_of_mem_eraseIdx he)
  | post m e => exact ha.elim
  | answer p =>
    unfold System.next
    dsimp only
    split
    · next x hx =>
      rw [if_neg]
      · exact h
      · rw [h.applied x (List.mem_of_getElem? hx)]
        decide
    · exact h
  | read m =>
    unfold System.next
    dsimp only
    split
    · exact h.update fun e he ↦ .inl he
    · exact h

/-! ### Agreement -/

theorem queueAgreement_of_follows {net : CodexNetwork M} (hleft : TurnsLeft roomId net)
    (h : ∀ m, (codexSystem roomId).Follows ⟨none, []⟩ net.log (net.replica m) m) :
    QueueAgreement net where
  left := by
    intro m hcursor x hx turnId hfin hholds
    have hmem : turnId ∈ (net.replica m).view.turnIds.queued := hholds
    have hlate : late net.log (net.replica m) m = [] := by
      refine List.map_eq_nil_iff.mpr (List.filter_eq_nil_iff.mpr fun y hy ↦ ?_)
      simp [hleft.applied y (List.mem_of_mem_take hy)]
    have hahead : ahead net.log (net.replica m) m = (net.replica m).unsent := by
      unfold ahead
      rw [hcursor, List.drop_length]
      rfl
    have hview := (h m).view
    rw [hlate, hahead, hcursor] at hview
    rw [show (net.replica m).view.turnIds = _ from hview] at hmem
    rcases TurnIds.mem_queued_foldl hmem with hlog | ⟨e, he, hann⟩
    · exact hleft.left x hx turnId hfin hlog
    · exact hleft.unsent m e he turnId hann x hx hfin
  same := by
    intro m n hm hn hcursor
    have hview : (net.replica m).view.turnIds = (net.replica n).view.turnIds := by
      calc (net.replica m).view.turnIds
          = (codexSystem roomId).logView ⟨none, []⟩ net.log (net.replica m).cursor :=
            (h m).obs_eq hm
        _ = (codexSystem roomId).logView ⟨none, []⟩ net.log (net.replica n).cursor := by
            rw [hcursor]
        _ = (net.replica n).view.turnIds := ((h n).obs_eq hn).symm
    exact congrArg TurnIds.queued hview

end Network

/-! ### Which local actions do what their events do -/

/-- The action leaves the turns as its messages leave them at another replica. -/
@[grind =] def Mirrors (runtime : CodexRuntimeRoomState)
    (result : CodexRuntimeRoomState × List CodexMessage) : Prop :=
  result.1.turnIds = result.2.foldl TurnIds.apply runtime.turnIds

/-- A lifecycle event moves no turn, here or there. -/
theorem publish_mirrors (connected : Bool) (event : CodexRoomEvent)
    (runtime : CodexRuntimeRoomState) :
    Mirrors runtime (perform runtime (.publish connected event)) := by
  have happend : (runtime.appendCodexEvent event).turnIds = runtime.turnIds :=
    turnIds_receive "" runtime (.turn event)
  cases connected <;> exact happend

/-- A cancellation, when nothing awaits approval. -/
theorem cancel_mirrors {p : Publication} {turnId : String} {runtime : CodexRuntimeRoomState}
    (hconnected : p.connected = true) (hpending : runtime.pendingApproval = none) :
    Mirrors runtime (onCancelQueuedCodexTurn p turnId runtime) := by
  unfold Mirrors onCancelQueuedCodexTurn publishCodexQueueEvent
  rw [if_pos hconnected, turnIds_remove]
  ext1
  · show runtime.pendingApproval.map _ = none
    rw [hpending]
    rfl
  · rfl

/-- An invocation by a member that is not the host, when nothing awaits approval. -/
theorem invoke_mirrors {c : InvokeContext} {p : Publication} {turn : QueuedCodexTurn}
    {runtime : CodexRuntimeRoomState} (hconnected : p.connected = true)
    (hpending : runtime.pendingApproval = none) (hmember : c.isActiveHost = false) :
    Mirrors runtime (handleCodexInvoke c p turn runtime) := by
  have hcleared : ∀ r : CodexRuntimeRoomState, r.pendingApproval = none → ∀ visible,
      ((r.setPendingCodexApproval none).setApprovalVisible visible).turnIds = r.turnIds := by
    intro r hr visible
    ext1
    · show none = r.pendingApproval.map _
      rw [hr]
      rfl
    · rfl
  have hpublished : ∀ trigger position size,
      (publishCodexQueueEvent p turn.turnId .queued trigger none position size).foldl
        TurnIds.apply runtime.turnIds = runtime.turnIds.enqueue turn.turnId := by
    intro trigger position size
    rw [publishCodexQueueEvent, if_pos hconnected]
    rfl
  have henqueued : (runtime.enqueueCodexApproval turn).pendingApproval = none := by
    unfold CodexRuntimeRoomState.enqueueCodexApproval
    split <;> exact hpending
  unfold Mirrors handleCodexInvoke
  dsimp only
  split
  · split
    · exact hcleared runtime hpending false
    · rfl
  split
  · rfl
  split
  · split
    · rfl
    · rw [hpublished, turnIds_enqueue]
  split
  · rfl
  · rw [hmember, hpublished, if_neg (by decide), hcleared _ henqueued, turnIds_enqueue]

theorem queued_promoteTurns_subset (check : QueuedCodexTurn → PromotionCheck)
    (turns : List QueuedCodexTurn) (runtime : CodexRuntimeRoomState) :
    (promoteTurns check turns runtime).turnIds.queued ⊆ runtime.turnIds.queued := by
  induction turns generalizing runtime with
  | nil => exact List.Subset.refl _
  | cons t rest ih =>
    have hremoved : (runtime.removeQueuedCodexApproval t.turnId).turnIds.queued ⊆
        runtime.turnIds.queued := by
      rw [turnIds_remove]
      exact List.filter_subset_self _
    unfold promoteTurns
    dsimp only
    split
    · exact List.Subset.trans (ih _) hremoved
    · exact List.Subset.trans (ih _) hremoved
    · exact hremoved
    · refine List.Subset.trans ?_ hremoved
      show (((runtime.removeQueuedCodexApproval t.turnId).removeQueuedCodexApproval
        t.turnId).turnIds.queued) ⊆ _
      rw [turnIds_remove]
      exact List.filter_subset_self _

/-- **A promotion is never what other replicas see**: it takes the head of the queue away and
publishes nothing. -/
theorem promote_not_mirrors (check : QueuedCodexTurn → PromotionCheck)
    {runtime : CodexRuntimeRoomState} {t : QueuedCodexTurn} {rest : List QueuedCodexTurn}
    (hqueue : runtime.queuedApprovals.turns = t :: rest) :
    ¬Mirrors runtime (perform runtime (.promote check)) := by
  intro hmirrors
  have hsame : (promoteTurns check (t :: rest) runtime).turnIds.queued =
      runtime.turnIds.queued := by
    rw [← hqueue]
    exact congrArg TurnIds.queued hmirrors
  have hhead : t.turnId ∈ runtime.turnIds.queued := by
    show t.turnId ∈ runtime.queuedApprovals.turns.map QueuedCodexTurn.turnId
    rw [hqueue]
    exact List.mem_cons_self
  have hgone : ∀ r : CodexRuntimeRoomState,
      r.turnIds.queued ⊆ (runtime.removeQueuedCodexApproval t.turnId).turnIds.queued →
      t.turnId ∉ r.turnIds.queued := by
    intro r hr hmem
    have hin := hr hmem
    rw [turnIds_remove] at hin
    simp at hin
  refine hgone _ ?_ (hsame ▸ hhead)
  unfold promoteTurns
  dsimp only
  split
  · exact queued_promoteTurns_subset check rest _
  · exact queued_promoteTurns_subset check rest _
  · exact List.Subset.refl _
  · show (((runtime.removeQueuedCodexApproval t.turnId).removeQueuedCodexApproval
      t.turnId).turnIds.queued) ⊆ _
    rw [turnIds_remove (runtime.removeQueuedCodexApproval t.turnId)]
    exact List.filter_subset_self _

/-! ### A turn that has run stays queued -/

/-- Alice asks for a turn. -/
def aliceInvokes : LocalAction :=
  .invoke ⟨true, false, false, false, true⟩
    ⟨true, "Alice", "github:alice", "q-1", "2026-01-01T00:00:00.000Z"⟩
    { turnId := "turn-1", roomId := "room", requestedBy := "Alice",
      requestedByUserId := "github:alice", queuedAt := "2026-01-01T00:00:00.000Z" }

/-- Hana, who hosts, starts it. -/
def turnStarted : CodexRoomEvent where
  turnId := "turn-1"
  status := .started
  message := "Started Codex turn with gpt."
  model := "gpt"
  host := "Hana"
  hostUserId := "github:hana"
  createdAt := "2026-01-01T00:01:00.000Z"

/-- Alice asks for a turn, Hana promotes, approves and starts it, and Bob reads both messages. -/
def aliceTurnRuns : List (Action String CodexMessage LocalAction) :=
  [.act "alice" aliceInvokes, .accept "alice" 0, .read "hana", .read "bob",
    .act "hana" (.promote fun _ ↦ .ready),
    .act "hana" (.approve .approved (fun _ ↦ .ready) none),
    .act "hana" (.publish true turnStarted), .accept "hana" 0, .read "bob"]

/-- The network after that run. -/
def afterAliceTurn : CodexNetwork String :=
  (Machine.run (codexSystem "room").step noTurns aliceTurnRuns).1

/-- Alice asks for a turn and Bob reads it. -/
def bobReadsAlice : List (Action String CodexMessage LocalAction) :=
  [.act "alice" aliceInvokes, .accept "alice" 0, .read "bob"]

end MultAIplayer.Desktop
