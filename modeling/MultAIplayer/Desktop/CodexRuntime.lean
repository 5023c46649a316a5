import MultAIplayer.Protocol.Records
import Mathlib.Data.List.Nodup

/-!
# The Codex runtime of a room

What a desktop replica keeps of a room's Codex turns (`codexHostHandoffSlice.ts`): the turns that
wait for the host, the approval that the host is looking at, and the lifecycle events.

## The queue

A `TurnQueue` holds at most five turns with distinct ids by construction. Both facts are what
`enqueueCodexApprovalForRoom` checks and cuts off, and no later proof goes back to them.

## Optional keys

A reducer deletes a key instead of storing an empty value, and every reader takes an absent key for
the empty value; here the empty value stands for both.
-/

namespace MultAIplayer.Desktop

/-! ### Turns -/

structure QueuedCodexTurn where
  turnId : String
  roomId : String
  requestedBy : String
  requestedByUserId : String
  queuedAt : String
  triggerMessageId : Option String := none
  deriving DecidableEq

/-- The turn that the host is asked to approve. -/
structure PendingCodexApproval where
  turnId : String
  roomId : String
  requestedBy : String
  requestedByUserId : String
  queuedAt : String
  deriving DecidableEq

inductive CodexEventStatus
  | started
  | event
  | completed
  | failed
  deriving DecidableEq

structure CodexRoomEvent where
  turnId : String
  status : CodexEventStatus
  message : String
  model : String
  threadId : Option String := none
  eventName : Option String := none
  consumedMessageIds : Option (List String) := none
  host : String
  hostUserId : String
  createdAt : String
  deriving DecidableEq

/-! ### Queues of distinct turns -/

/-- `maxCodexQueueSize`. -/
def maxCodexQueueSize : ℕ := 5

/-- The turns that wait, oldest first. -/
structure TurnQueue where
  turns : List QueuedCodexTurn
  /-- `slice(0, 5)`. -/
  length_le : turns.length ≤ maxCodexQueueSize
  /-- A turn that is queued is not queued again. -/
  nodup : (turns.map QueuedCodexTurn.turnId).Nodup
  deriving DecidableEq

namespace TurnQueue

@[ext] theorem ext {q r : TurnQueue} (h : q.turns = r.turns) : q = r := by
  cases q
  cases r
  simpa using h

def empty : TurnQueue := ⟨[], by decide, by decide⟩

instance : Inhabited TurnQueue := ⟨empty⟩

@[simp] theorem empty_turns : empty.turns = [] := rfl

/-- `queuedApprovals.some((queued) => queued.turnId === turnId)`. -/
def Holds (q : TurnQueue) (turnId : String) : Prop := turnId ∈ q.turns.map QueuedCodexTurn.turnId

instance (q : TurnQueue) (turnId : String) : Decidable (q.Holds turnId) :=
  inferInstanceAs (Decidable (_ ∈ _))

/-- `[...queuedApprovals, turn].slice(0, 5)`. -/
@[grind =]
def push (q : TurnQueue) (turn : QueuedCodexTurn) (hnew : ¬q.Holds turn.turnId) : TurnQueue where
  turns := (q.turns ++ [turn]).take maxCodexQueueSize
  length_le := List.length_take_le _ _
  nodup := by
    have hall : ((q.turns ++ [turn]).map QueuedCodexTurn.turnId).Nodup := by
      rw [List.map_append, List.map_singleton]
      exact List.nodup_append.mpr ⟨q.nodup, List.nodup_singleton _, fun a ha b hb hab ↦
        hnew (List.mem_singleton.mp hb ▸ hab ▸ ha)⟩
    exact hall.sublist ((List.take_sublist _ _).map _)

/-- Append a turn unless it is queued. -/
@[grind =] def enqueue (q : TurnQueue) (turn : QueuedCodexTurn) : TurnQueue :=
  if h : q.Holds turn.turnId then q else q.push turn h

/-- `queuedApprovals.filter((approval) => approval.turnId !== turnId)`. -/
def remove (q : TurnQueue) (turnId : String) : TurnQueue where
  turns := q.turns.filter fun t ↦ t.turnId ≠ turnId
  length_le := Nat.le_trans (List.length_filter_le _ _) q.length_le
  nodup := q.nodup.sublist (List.filter_sublist.map _)

@[simp] theorem remove_turns (q : TurnQueue) (turnId : String) :
    (q.remove turnId).turns = q.turns.filter fun t ↦ t.turnId ≠ turnId := rfl

@[simp] theorem holds_remove {q : TurnQueue} {turnId other : String} :
    (q.remove turnId).Holds other ↔ q.Holds other ∧ other ≠ turnId := by
  simp only [Holds, remove_turns, List.mem_map, List.mem_filter, decide_eq_true_eq]
  constructor
  · rintro ⟨t, ⟨ht, hne⟩, rfl⟩
    exact ⟨⟨t, ht, rfl⟩, hne⟩
  · rintro ⟨⟨t, ht, rfl⟩, hne⟩
    exact ⟨t, ⟨ht, hne⟩, rfl⟩

theorem remove_of_not_holds {q : TurnQueue} {turnId : String} (h : ¬q.Holds turnId) :
    q.remove turnId = q := by
  ext1
  rw [remove_turns, List.filter_eq_self]
  intro t ht
  exact decide_eq_true fun he ↦ h (he ▸ List.mem_map_of_mem ht)

/-- Appending to a queue with room for one more. -/
theorem push_turns {q : TurnQueue} {turn : QueuedCodexTurn} (hnew : ¬q.Holds turn.turnId) :
    (q.push turn hnew).turns =
      if q.turns.length < maxCodexQueueSize then q.turns ++ [turn] else q.turns := by
  show (q.turns ++ [turn]).take maxCodexQueueSize = _
  split
  · rw [List.take_of_length_le]
    rw [List.length_append, List.length_singleton]
    omega
  · next hfull =>
    rw [List.take_append_of_le_length (by omega), List.take_of_length_le q.length_le]

/-- **What enqueueing does**: the turn is appended when it is new and there is room, and otherwise
nothing happens. -/
theorem enqueue_turns (q : TurnQueue) (turn : QueuedCodexTurn) :
    (q.enqueue turn).turns =
      if ¬q.Holds turn.turnId ∧ q.turns.length < maxCodexQueueSize then q.turns ++ [turn]
      else q.turns := by
  unfold enqueue
  split
  · next h => rw [if_neg fun hc ↦ hc.1 h]
  · next h => simp only [push_turns h, h, not_false_eq_true, true_and]

theorem holds_enqueue_of_holds {q : TurnQueue} {turn : QueuedCodexTurn} {turnId : String}
    (h : q.Holds turnId) : (q.enqueue turn).Holds turnId := by
  unfold Holds at h ⊢
  rw [enqueue_turns]
  split
  · rw [List.map_append, List.mem_append]
    exact .inl h
  · exact h

theorem holds_of_holds_enqueue {q : TurnQueue} {turn : QueuedCodexTurn} {turnId : String}
    (h : (q.enqueue turn).Holds turnId) : q.Holds turnId ∨ turnId = turn.turnId := by
  unfold Holds at h ⊢
  rw [enqueue_turns] at h
  split at h
  · rw [List.map_append, List.mem_append] at h
    exact h.imp_right fun hm ↦ List.mem_singleton.mp hm
  · exact .inl h

/-- The turns that other members asked for. -/
@[grind =] def ofOthers (q : TurnQueue) (userId : String) : List QueuedCodexTurn :=
  q.turns.filter fun t ↦ t.requestedByUserId ≠ userId

/-- A member's own turn never displaces another's. -/
theorem ofOthers_enqueue {q : TurnQueue} {turn : QueuedCodexTurn} {userId : String}
    (h : turn.requestedByUserId = userId) : (q.enqueue turn).ofOthers userId = q.ofOthers userId := by
  unfold ofOthers
  rw [enqueue_turns]
  split
  · rw [List.filter_append]
    simp [h]
  · rfl

/-- Removing a turn leaves the others' turns exactly when it is not one of them. -/
theorem ofOthers_remove_eq_iff {q : TurnQueue} {turnId userId : String} :
    (q.remove turnId).ofOthers userId = q.ofOthers userId ↔
      ∀ t ∈ q.turns, t.turnId = turnId → t.requestedByUserId = userId := by
  unfold ofOthers
  rw [remove_turns, List.filter_filter]
  constructor
  · intro h t ht hid
    by_contra hother
    have hmem : t ∈ q.turns.filter fun t ↦ t.requestedByUserId ≠ userId :=
      List.mem_filter.mpr ⟨ht, decide_eq_true hother⟩
    rw [← h, List.mem_filter] at hmem
    simp [hid] at hmem
  · intro h
    refine List.filter_congr fun t ht ↦ ?_
    by_cases hid : t.turnId = turnId
    · simp [hid, h t ht hid]
    · simp [hid]

end TurnQueue

/-! ### The runtime and its reducers -/

structure CodexRuntimeRoomState where
  events : List CodexRoomEvent := []
  approvalVisible : Bool := false
  pendingApproval : Option PendingCodexApproval := none
  queuedApprovals : TurnQueue := .empty
  running : Bool := false
  deriving DecidableEq

/-- `existing.turnId === event.turnId && …`: the same event once more. -/
def sameEvent (existing event : CodexRoomEvent) : Bool :=
  existing.turnId = event.turnId && existing.createdAt = event.createdAt &&
    existing.status = event.status && existing.message = event.message

/-- `[...roomEvents, event].slice(-80)`. -/
def appendRoomEvent (roomEvents : List CodexRoomEvent) (event : CodexRoomEvent) :
    List CodexRoomEvent :=
  if roomEvents.any (sameEvent · event) then roomEvents
  else (roomEvents ++ [event]).drop (roomEvents.length + 1 - 80)

namespace CodexRuntimeRoomState

variable (runtime : CodexRuntimeRoomState)

def appendCodexEvent (event : CodexRoomEvent) : CodexRuntimeRoomState :=
  { runtime with events := appendRoomEvent runtime.events event }

def setApprovalVisible (visible : Bool) : CodexRuntimeRoomState :=
  { runtime with approvalVisible := visible }

/-- A turn that becomes the pending approval leaves the queue. -/
def setPendingCodexApproval (approval : Option PendingCodexApproval) : CodexRuntimeRoomState :=
  { runtime with
    pendingApproval := approval
    queuedApprovals := match approval with
      | some a => runtime.queuedApprovals.remove a.turnId
      | none => runtime.queuedApprovals }

/-- A turn that is pending or queued is not queued again. -/
def enqueueCodexApproval (turn : QueuedCodexTurn) : CodexRuntimeRoomState :=
  if runtime.pendingApproval.any (·.turnId = turn.turnId) then runtime
  else { runtime with queuedApprovals := runtime.queuedApprovals.enqueue turn }

def removeQueuedCodexApproval (turnId : String) : CodexRuntimeRoomState :=
  { runtime with queuedApprovals := runtime.queuedApprovals.remove turnId }

def resetCodexApproval : CodexRuntimeRoomState :=
  { runtime with pendingApproval := none, approvalVisible := false, queuedApprovals := .empty }

def setCodexRunning (running : Bool) : CodexRuntimeRoomState := { runtime with running := running }

end CodexRuntimeRoomState

/-- `codexRuntimeByRoom`; a room without a runtime reads as the empty one. -/
abbrev CodexRuntimeByRoom := String → CodexRuntimeRoomState

/-- `updateCodexRuntimeForRoom`. -/
def updateCodexRuntimeForRoom (current : CodexRuntimeByRoom) (roomId : String)
    (update : CodexRuntimeRoomState → CodexRuntimeRoomState) : CodexRuntimeByRoom :=
  fun r ↦ if r = roomId then update (current r) else current r

@[simp] theorem updateCodexRuntimeForRoom_self (current : CodexRuntimeByRoom) (roomId : String)
    (update : CodexRuntimeRoomState → CodexRuntimeRoomState) :
    updateCodexRuntimeForRoom current roomId update roomId = update (current roomId) :=
  if_pos rfl

theorem updateCodexRuntimeForRoom_of_ne {current : CodexRuntimeByRoom} {roomId r : String}
    {update : CodexRuntimeRoomState → CodexRuntimeRoomState} (h : r ≠ roomId) :
    updateCodexRuntimeForRoom current roomId update r = current r :=
  if_neg h

end MultAIplayer.Desktop
