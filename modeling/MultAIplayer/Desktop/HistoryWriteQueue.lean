import MultAIplayer.Lib.InsertionMap
import MultAIplayer.Lib.Machine
import Mathlib.Data.Finset.Basic

/-!
# The write queue of local history

`LocalHistoryWriteQueue` hands the snapshots of a room's history to `save` one after the other, of
those that wait only the newest. A barrier (`withBarrier`) holds a room back while it deletes the
room's history: snapshots queued meanwhile are kept in `blockedPending` until it is over.

## Promises

The code between two awaits is one step here. A snapshot is known by the number of its call, and the
promise of the save of a snapshot by the snapshot; an error is known by the snapshot whose save it
is the error of. Reactions of one promise may run in any order.

`save` is a function of the native side that always returns its promise, and callbacks may throw
(`threw`); one that queues a snapshot itself is a call right after the save has settled.
-/

namespace MultAIplayer.Desktop

/-! ### The queue -/

/-- How far a call of `save` is: it runs, or its callback has run as well. -/
inductive SavePhase
  | saving
  | settled (threw : Bool)
  deriving DecidableEq

structure ActiveSave where
  snapshot : ℕ
  phase : SavePhase
  deriving DecidableEq

structure RoomHistoryWriter where
  active : Option ActiveSave := none
  pending : Option ℕ := none
  deriving DecidableEq

structure LocalHistoryWriteQueue where
  writers : InsertionMap String RoomHistoryWriter := .empty
  /-- The last barrier of a room. -/
  barriers : InsertionMap String ℕ := .empty
  blockedRooms : Finset String := ∅
  blockedPending : InsertionMap String ℕ := .empty
  failures : InsertionMap String ℕ := .empty

/-! ### What is in progress -/

/-- How far a barrier is. -/
inductive BarrierPhase
  /-- It awaits the barrier before it. -/
  | chained
  /-- It awaits the save of a snapshot. -/
  | waiting (snapshot : ℕ)
  | operating
  /-- Its promise has settled, and its caller has not been resumed. -/
  | settled
  deriving DecidableEq

structure BarrierCall where
  roomId : String
  previous : Option ℕ
  phase : BarrierPhase := .chained
  deriving DecidableEq

/-- A flush of one room, or of all, and the saves that it awaits. -/
structure FlushCall where
  target : Option String
  awaited : List ℕ
  deriving DecidableEq

/-- The queue and the calls that have not returned. -/
structure HistoryQueueRun extends LocalHistoryWriteQueue where
  barrierCalls : InsertionMap ℕ BarrierCall := .empty
  flushCalls : InsertionMap ℕ FlushCall := .empty
  /-- The saves whose promise has settled, and whether it was rejected. -/
  promises : ℕ → Option Bool := fun _ ↦ none
  /-- The number of the next call. -/
  next : ℕ := 0

inductive QueueAction
  | queue (roomId : String)
  | withBarrier (roomId : String)
  | flush (roomId : Option String)
  /-- The promise of a room's save settles and its callback runs. -/
  | saveSettles (roomId : String) (succeeded threw : Bool)
  /-- The last reaction to it. -/
  | finishSave (roomId : String)
  | runBarrier (barrier : ℕ)
  /-- The save that a barrier awaits has come to its end. -/
  | resumeBarrier (barrier : ℕ)
  | operationSettles (barrier : ℕ) (succeeded : Bool)
  | returnBarrier (barrier : ℕ)
  | resumeFlush (flush : ℕ)
  deriving DecidableEq

inductive QueueEvent
  | queued (roomId : String) (snapshot : ℕ)
  /-- `save` is called. -/
  | handed (roomId : String) (snapshot : ℕ)
  | saved (roomId : String) (snapshot : ℕ)
  | saveFailed (roomId : String) (snapshot : ℕ)
  | barrierCalled (roomId : String) (barrier : ℕ)
  | operationStarted (roomId : String) (barrier : ℕ)
  | barrierSucceeded (roomId : String) (barrier : ℕ)
  | barrierFailed (roomId : String) (barrier : ℕ)
  | barrierReturned (roomId : String) (barrier : ℕ)
  | flushResolved (flush : ℕ) (target : Option String)
  /-- A flush throws the errors of failed saves. -/
  | flushFailed (flush : ℕ) (failures : List ℕ)
  /-- A flush is rejected because a save that it awaits is. -/
  | flushThrew (flush : ℕ)
  deriving DecidableEq

namespace HistoryQueueRun

variable (q : HistoryQueueRun)

/-- `writers.get(roomId)?.active`. -/
@[grind =]
def active (roomId : String) : Option ActiveSave := (q.writers.get roomId).bind (·.active)

/-! ### Queueing -/

/-- `start`. -/
def start (roomId : String) (writer : RoomHistoryWriter) (snapshot : ℕ) :
    HistoryQueueRun × List QueueEvent :=
  ({ q with writers := q.writers.set roomId { writer with active := some ⟨snapshot, .saving⟩ } },
    [.handed roomId snapshot])

/-- The body of `queue`. -/
@[grind =] def enqueue (roomId : String) (snapshot : ℕ) : HistoryQueueRun × List QueueEvent :=
  if roomId ∈ q.blockedRooms then
    ({ q with blockedPending := q.blockedPending.set roomId snapshot }, [])
  else
    let writer := (q.writers.get roomId).getD {}
    if writer.active.isSome then
      ({ q with writers := q.writers.set roomId { writer with pending := some snapshot } }, [])
    else q.start roomId writer snapshot

def queue (roomId : String) : HistoryQueueRun × List QueueEvent :=
  let (q', events) := enqueue { q with next := q.next + 1 } roomId q.next
  (q', .queued roomId q.next :: events)

/-! ### Saves -/

def saveSettles (roomId : String) (succeeded threw : Bool) :
    Option (HistoryQueueRun × List QueueEvent) :=
  match q.writers.get roomId with
  | some ⟨some ⟨snapshot, .saving⟩, pending⟩ =>
    let writers := q.writers.set roomId ⟨some ⟨snapshot, .settled threw⟩, pending⟩
    if succeeded then
      some ({ q with writers := writers, failures := q.failures.delete roomId },
        [.saved roomId snapshot])
    else
      some ({ q with writers := writers, failures := q.failures.set roomId snapshot },
        [.saveFailed roomId snapshot])
  | _ => none

def finishSave (roomId : String) : Option (HistoryQueueRun × List QueueEvent) :=
  match q.writers.get roomId with
  | some ⟨some ⟨snapshot, .settled threw⟩, pending⟩ =>
    let q' := { q with promises := fun n ↦ if n = snapshot then some threw else q.promises n }
    match pending with
    | some next =>
      if roomId ∉ q.blockedRooms then some (q'.start roomId {} next)
      else some ({ q' with writers := q.writers.delete roomId }, [])
    | none => some ({ q' with writers := q.writers.delete roomId }, [])
  | _ => none

/-! ### Barriers -/

/-- The pending snapshot moves to the blocked ones. -/
@[grind =] def retainPending (roomId : String) : HistoryQueueRun :=
  match q.writers.get roomId with
  | some ⟨active, some snapshot⟩ =>
    { q with
      blockedPending := q.blockedPending.set roomId snapshot
      writers := q.writers.set roomId ⟨active, none⟩ }
  | _ => q

/-- `withBarrier` up to its first await. -/
@[grind =] def withBarrier (roomId : String) : HistoryQueueRun × List QueueEvent :=
  let q' := retainPending { q with blockedRooms := insert roomId q.blockedRooms } roomId
  ({ q' with
      barriers := q.barriers.set roomId q.next
      barrierCalls := q.barrierCalls.set q.next { roomId, previous := q.barriers.get roomId }
      next := q.next + 1 },
    [.barrierCalled roomId q.next])

/-- Whether the promise of a barrier has settled. -/
def isSettled (barrier : ℕ) : Bool := (q.barrierCalls.get barrier).all (·.phase = .settled)

@[grind =]
def setPhase (barrier : ℕ) (call : BarrierCall) (phase : BarrierPhase) : HistoryQueueRun :=
  { q with barrierCalls := q.barrierCalls.set barrier { call with phase } }

def runBarrier (barrier : ℕ) : Option (HistoryQueueRun × List QueueEvent) :=
  match q.barrierCalls.get barrier with
  | some call =>
    if call.phase = .chained ∧ call.previous.all q.isSettled then
      match q.active call.roomId with
      | some save => some (q.setPhase barrier call (.waiting save.snapshot), [])
      | none =>
        some (q.setPhase barrier call .operating, [.operationStarted call.roomId barrier])
    else none
  | none => none

def resumeBarrier (barrier : ℕ) : Option (HistoryQueueRun × List QueueEvent) :=
  match q.barrierCalls.get barrier with
  | some call =>
    match call.phase with
    | .waiting snapshot =>
      match q.promises snapshot with
      | some false =>
        some (q.setPhase barrier call .operating, [.operationStarted call.roomId barrier])
      | some true => some (q.setPhase barrier call .settled, [.barrierFailed call.roomId barrier])
      | none => none
    | _ => none
  | none => none

def operationSettles (barrier : ℕ) (succeeded : Bool) :
    Option (HistoryQueueRun × List QueueEvent) :=
  match q.barrierCalls.get barrier with
  | some call =>
    if call.phase = .operating then
      if succeeded then
        some ({ q.setPhase barrier call .settled with
            failures := q.failures.delete call.roomId
            blockedPending := q.blockedPending.delete call.roomId },
          [.barrierSucceeded call.roomId barrier])
      else some (q.setPhase barrier call .settled, [.barrierFailed call.roomId barrier])
    else none
  | none => none

/-- The `finally` block of the last barrier. -/
def unblock (roomId : String) : HistoryQueueRun × List QueueEvent :=
  let q' := { q with
    barriers := q.barriers.delete roomId
    blockedRooms := q.blockedRooms.erase roomId
    blockedPending := q.blockedPending.delete roomId }
  match q.blockedPending.get roomId with
  | some snapshot => q'.enqueue roomId snapshot
  | none => (q', [])

def returnBarrier (barrier : ℕ) : Option (HistoryQueueRun × List QueueEvent) :=
  match q.barrierCalls.get barrier with
  | some call =>
    if call.phase = .settled then
      let q' := { q with barrierCalls := q.barrierCalls.delete barrier }
      let (q'', events) :=
        if q.barriers.get call.roomId = some barrier then q'.unblock call.roomId else (q', [])
      some (q'', .barrierReturned call.roomId barrier :: events)
    else none
  | none => none

/-! ### Flushes -/

/-- The failures that a flush throws. -/
def failuresOf : Option String → List ℕ
  | some roomId => (q.failures.get roomId).toList
  | none => q.failures.values

/-- The failures that it leaves. -/
def failuresWithout : Option String → InsertionMap String ℕ
  | some roomId => q.failures.delete roomId
  | none => .empty

/-- `flush` after its loop. -/
def reportFailures (flush : ℕ) (target : Option String) : HistoryQueueRun × List QueueEvent :=
  ({ q with failures := q.failuresWithout target, flushCalls := q.flushCalls.delete flush },
    [if q.failuresOf target = [] then .flushResolved flush target
      else .flushFailed flush (q.failuresOf target)])

/-- A round of the loop of `flush`, up to its await. -/
def flushRound (flush : ℕ) (target : Option String) : HistoryQueueRun × List QueueEvent :=
  let await awaited :=
    ({ q with flushCalls := q.flushCalls.set flush ⟨target, awaited⟩ }, ([] : List QueueEvent))
  match target with
  | some roomId =>
    match q.active roomId with
    | some save => await [save.snapshot]
    | none => q.reportFailures flush target
  | none => await ((q.writers.values.filterMap (·.active)).map (·.snapshot))

/-- `flush`; the empty id is no room. -/
def flush (roomId : Option String) : HistoryQueueRun × List QueueEvent :=
  flushRound { q with next := q.next + 1 } q.next (roomId.filter (· ≠ ""))

/-- The condition on which the loop of `flush` ends. -/
def isDrained : Option String → Bool
  | some roomId => !q.writers.has roomId
  | none => q.writers.size = 0

def resumeFlush (flush : ℕ) : Option (HistoryQueueRun × List QueueEvent) :=
  match q.flushCalls.get flush with
  | some call =>
    if call.awaited.any (q.promises · = some true) then
      some ({ q with flushCalls := q.flushCalls.delete flush }, [.flushThrew flush])
    else if call.awaited.all (q.promises · = some false) then
      if q.isDrained call.target then some (q.reportFailures flush call.target)
      else some (q.flushRound flush call.target)
    else none
  | none => none

/-! ### Steps -/

/-- What an action does, if it can be taken. -/
def attempt : QueueAction → Option (HistoryQueueRun × List QueueEvent)
  | .queue roomId => some (q.queue roomId)
  | .withBarrier roomId => some (q.withBarrier roomId)
  | .flush roomId => some (q.flush roomId)
  | .saveSettles roomId succeeded threw => q.saveSettles roomId succeeded threw
  | .finishSave roomId => q.finishSave roomId
  | .runBarrier barrier => q.runBarrier barrier
  | .resumeBarrier barrier => q.resumeBarrier barrier
  | .operationSettles barrier succeeded => q.operationSettles barrier succeeded
  | .returnBarrier barrier => q.returnBarrier barrier
  | .resumeFlush flush => q.resumeFlush flush

@[grind =]
def step (a : QueueAction) : HistoryQueueRun × List QueueEvent := (q.attempt a).getD (q, [])

end HistoryQueueRun

end MultAIplayer.Desktop
