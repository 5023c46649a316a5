import MultAIplayer.Lib.Machine
import MultAIplayer.Protocol.RelayMessages

/-!
# The relay inbox of a desktop client

What a client does with the MLS messages that the relay sends it (`useRelaySubscription.ts`): it
drops those whose id it has seen, queues the others by room, and hands them to the native engine one
after the other. The engine is a parameter (`MlsEngine`) that never decrypts a message twice.

## One set of ids for all rooms

The relay refuses a second message with the same id **in a room**; the client keeps one set of ids
for all rooms. So a message of one room suppresses a message of another that carries its id
(`suppressed_by_other_room`). Each mark of the set here remembers which room made it, which the code
does not look at. While no lookup finds a mark of another room, every room's messages are handled as
if it were alone (`routedOncePerRoom_of_ownMarks`).

## Steps

A task is queued when the message arrives, starts when those before it are done and finishes when
the engine has answered, and steps of all rooms interleave. A new subscription (`resubscribe`)
cancels the tasks that have not started; those that have go on beside it.
-/

namespace MultAIplayer.Desktop

/-! ### The native engine -/

structure RosterMember where
  leaf : ℕ
  githubUserId : String
  deviceId : String
  deriving DecidableEq

structure MlsAuthenticatedData where
  messageId : String
  epoch : ℕ
  teamId : String
  roomId : String
  kind : String
  senderUserId : String
  senderDeviceId : String
  createdAt : String
  deriving DecidableEq

structure MlsIncomingApplication where
  epoch : ℕ
  senderLeaf : ℕ
  authenticatedData : Option MlsAuthenticatedData
  deriving DecidableEq

/-- How `processMlsIncoming` ends. -/
inductive Processed
  | threw
  | noApplication
  | application (incoming : MlsIncomingApplication)
  deriving DecidableEq

/-- The engine as the client sees it: a group state for each room, and calls that may fail as the
environment has it. A message that has been decrypted cannot be decrypted again. -/
structure MlsEngine (G Env : Type) where
  /-- `currentMlsEpoch`. -/
  epoch : G → Env → Option ℕ
  /-- `processMlsIncoming`. -/
  process : G → MlsRelayMessage → Env → G × Processed
  /-- The roster of `mlsGroupState`. -/
  roster : G → Env → Option (List RosterMember)
  /-- `recoverAuthenticatedHostTransfer` returns. -/
  recovers : Env → Bool
  /-- The handlers that a message is routed to return. -/
  routes : Env → Bool
  /-- The key of the message has been used up. -/
  Used : G → MlsRelayMessage → Prop
  used_of_application : ∀ g m env incoming, (process g m env).2 = .application incoming →
    ¬Used g m ∧ Used (process g m env).1 m
  used_mono : ∀ g m m' env, Used g m → Used (process g m' env).1 m

structure LocalIdentity where
  userId : String
  deviceId : String
  deriving DecidableEq

/-- The checks of `routeMlsMessage` between the envelope and what MLS authenticated. -/
def isAuthentic (m : MlsRelayMessage) (incoming : MlsIncomingApplication)
    (roster : List RosterMember) : Bool :=
  match incoming.authenticatedData, roster.find? (·.leaf = incoming.senderLeaf) with
  | some data, some sender =>
    sender.githubUserId = m.senderUserId && sender.deviceId = m.senderDeviceId &&
      data.messageId = m.id && data.epoch = incoming.epoch && data.epoch = m.epochHint &&
      data.teamId = m.teamId && data.roomId = m.roomId && data.senderUserId = m.senderUserId &&
      data.senderDeviceId = m.senderDeviceId && data.createdAt = m.createdAt
  | _, _ => false

/-- How the handling of a message ends. -/
inductive Handled
  /-- It threw, and nothing was decrypted. -/
  | failed
  /-- There was nothing to route. -/
  | skipped
  /-- It threw after the message was decrypted. -/
  | lost
  | routed
  deriving DecidableEq

section Handling

variable {G Env : Type} (engine : MlsEngine G Env) (me : LocalIdentity)

/-- The recovery of a committed handoff, where the message is one. -/
def recoverHandoff (m : MlsRelayMessage) (env : Env) : Handled :=
  if m.messageType = .commit ∧ m.isHostHandoff ∧ ¬engine.recovers env then .failed else .skipped

def routeMlsMessage (g : G) (m : MlsRelayMessage) (env : Env) : G × Handled :=
  let (g', processed) := engine.process g m env
  match processed with
  | .threw => (g', .failed)
  | .noApplication => (g', recoverHandoff engine m env)
  | .application incoming =>
    match engine.roster g' env with
    | none => (g', .lost)
    | some roster =>
      if isAuthentic m incoming roster then
        (g', if engine.routes env then .routed else .lost)
      else (g', .skipped)

/-- The body of a receive task. -/
def handle (g : G) (m : MlsRelayMessage) (env : Env) : G × Handled :=
  if m.senderUserId = me.userId ∧ m.senderDeviceId = me.deviceId then
    (g, recoverHandoff engine m env)
  else
    match engine.epoch g env with
    | none => (g, .failed)
    | some epoch =>
      if m.messageType = .commit ∧ m.epochHint < epoch then (g, recoverHandoff engine m env)
      else if epoch < m.epochHint then (g, .failed)
      else routeMlsMessage engine g m env

/-- **What is decrypted is decrypted for the first time**, and no handling gives a key back. -/
theorem handle_used (g : G) (m : MlsRelayMessage) (env : Env) :
    ((handle engine me g m env).2 = .routed →
      ¬engine.Used g m ∧ engine.Used (handle engine me g m env).1 m) ∧
    ∀ m', engine.Used g m' → engine.Used (handle engine me g m env).1 m' := by
  have hrecover : recoverHandoff engine m env ≠ .routed := by
    unfold recoverHandoff
    split <;> decide
  have hroute : ((routeMlsMessage engine g m env).2 = .routed →
      ¬engine.Used g m ∧ engine.Used (engine.process g m env).1 m) ∧
        (routeMlsMessage engine g m env).1 = (engine.process g m env).1 := by
    unfold routeMlsMessage
    dsimp only
    split
    · exact ⟨nofun, rfl⟩
    · exact ⟨fun h ↦ absurd h hrecover, rfl⟩
    · next incoming hprocessed =>
      have hfirst := engine.used_of_application g m env incoming hprocessed
      split
      · exact ⟨nofun, rfl⟩
      · split
        · exact ⟨fun _ ↦ hfirst, rfl⟩
        · exact ⟨nofun, rfl⟩
  unfold handle
  split
  · exact ⟨fun h ↦ absurd h hrecover, fun _ h ↦ h⟩
  split
  · exact ⟨nofun, fun _ h ↦ h⟩
  split
  · exact ⟨fun h ↦ absurd h hrecover, fun _ h ↦ h⟩
  split
  · exact ⟨nofun, fun _ h ↦ h⟩
  · rw [hroute.2]
    exact ⟨hroute.1, fun m' h ↦ engine.used_mono g m' m env h⟩

end Handling

/-! ### The inbox -/

structure ReceiveTask where
  message : MlsRelayMessage
  generation : ℕ
  deriving DecidableEq

/-- An id of `seenEnvelopeIds`, and the room whose message put it there. -/
structure SeenId where
  id : String
  roomId : String
  deriving DecidableEq

/-- The tasks of a room, and its group. -/
structure RoomInbox (G : Type) where
  waiting : List ReceiveTask := []
  active : List ReceiveTask := []
  group : G

structure RelayInbox (G : Type) where
  generation : ℕ := 0
  seen : List SeenId := []
  rooms : String → RoomInbox G

inductive InboxAction (Env : Type)
  /-- The socket delivers a message. -/
  | receive (message : MlsRelayMessage)
  /-- The next task of a room's chain starts. -/
  | start (roomId : String) (generation : ℕ)
  /-- The task that a room's chain is at finishes. -/
  | finish (roomId : String) (generation : ℕ) (env : Env)
  /-- A publisher marks its own message. -/
  | publish (roomId id : String)
  | resubscribe
  deriving DecidableEq

inductive InboxEvent
  /-- A message is dropped because its id has been seen. -/
  | dropped (roomId id : String)
  /-- The id is put into the set. -/
  | marked (roomId id : String)
  | decrypted (roomId id : String)
  | routed (roomId id : String)
  deriving DecidableEq

@[grind =] def InboxEvent.roomId : InboxEvent → String
  | .dropped r _ | .marked r _ | .decrypted r _ | .routed r _ => r

namespace RelayInbox

variable {G Env : Type} (engine : MlsEngine G Env) (me : LocalIdentity)

/-- `seenEnvelopeIds.current.has(id)`. -/
def hasSeen (s : RelayInbox G) (id : String) : Bool := s.seen.any (·.id = id)

def updateRoom (s : RelayInbox G) (roomId : String) (room : RoomInbox G) : RelayInbox G :=
  { s with rooms := fun r ↦ if r = roomId then room else s.rooms r }

def mark (s : RelayInbox G) (roomId id : String) : RelayInbox G :=
  { s with seen := s.seen ++ [⟨id, roomId⟩] }

@[grind =] def receive (s : RelayInbox G) (m : MlsRelayMessage) : RelayInbox G × List InboxEvent :=
  if s.hasSeen m.id then (s, [.dropped m.roomId m.id])
  else
    let room := s.rooms m.roomId
    (s.updateRoom m.roomId { room with waiting := room.waiting ++ [⟨m, s.generation⟩] }, [])

/-- A task starts when none of its chain is active; a cancelled one and one whose id has been seen
in the meantime end at once. -/
def start (s : RelayInbox G) (roomId : String) (generation : ℕ) :
    RelayInbox G × List InboxEvent :=
  let room := s.rooms roomId
  if room.active.any (·.generation = generation) then (s, [])
  else
    match room.waiting.find? (·.generation = generation) with
    | none => (s, [])
    | some task =>
      let rest := room.waiting.eraseP (·.generation = generation)
      if generation ≠ s.generation then (s.updateRoom roomId { room with waiting := rest }, [])
      else if s.hasSeen task.message.id then
        (s.updateRoom roomId { room with waiting := rest }, [.dropped roomId task.message.id])
      else
        (s.updateRoom roomId { room with waiting := rest, active := room.active ++ [task] }, [])

/-- The id is marked unless the handling threw. -/
def finish (s : RelayInbox G) (roomId : String) (generation : ℕ) (env : Env) :
    RelayInbox G × List InboxEvent :=
  let room := s.rooms roomId
  match room.active.find? (·.generation = generation) with
  | none => (s, [])
  | some task =>
    let (group, handled) := handle engine me room.group task.message env
    let s' := s.updateRoom roomId
      { room with active := room.active.eraseP (·.generation = generation), group := group }
    let id := task.message.id
    match handled with
    | .failed => (s', [])
    | .lost => (s', [.decrypted roomId id])
    | .skipped => (s'.mark roomId id, [.marked roomId id])
    | .routed =>
      (s'.mark roomId id, [.decrypted roomId id, .routed roomId id, .marked roomId id])

@[grind =] def step (s : RelayInbox G) : InboxAction Env → RelayInbox G × List InboxEvent
  | .receive m => s.receive m
  | .start roomId generation => s.start roomId generation
  | .finish roomId generation env => s.finish engine me roomId generation env
  | .publish roomId id => (s.mark roomId id, [.marked roomId id])
  | .resubscribe => ({ s with generation := s.generation + 1 }, [])

/-- A client before it has received anything. -/
def opened (groups : String → G) : RelayInbox G := { rooms := fun r ↦ { group := groups r } }

/-! ### One room's view -/

/-- The actions that concern a room. -/
def concerns (roomId : String) : InboxAction Env → Bool
  | .receive m => m.roomId = roomId
  | .start r _ => r = roomId
  | .finish r _ _ => r = roomId
  | .publish r _ => r = roomId
  | .resubscribe => true

/-- Two inboxes that are the same for a room, the second with the marks of this room alone. -/
structure AgreeFor (roomId : String) (s t : RelayInbox G) : Prop where
  generation : s.generation = t.generation
  room : s.rooms roomId = t.rooms roomId
  seen : s.seen.filter (·.roomId = roomId) = t.seen

/-- When a lookup finds no mark of another room, and nothing throws between decrypting and
routing. -/
def OwnMarks (s : RelayInbox G) : InboxAction Env → Prop
  | .receive m => s.hasSeen m.id = true → ⟨m.id, m.roomId⟩ ∈ s.seen
  | .start roomId generation =>
    ∀ task ∈ (s.rooms roomId).waiting.find? (·.generation = generation),
      s.hasSeen task.message.id = true → ⟨task.message.id, roomId⟩ ∈ s.seen
  | .finish roomId generation env =>
    ∀ task ∈ (s.rooms roomId).active.find? (·.generation = generation),
      (handle engine me (s.rooms roomId).group task.message env).2 ≠ .lost
  | _ => True

@[simp] theorem updateRoom_self (s : RelayInbox G) (roomId : String) (room : RoomInbox G) :
    (s.updateRoom roomId room).rooms roomId = room := if_pos rfl

theorem updateRoom_of_ne {s : RelayInbox G} {roomId r : String} {room : RoomInbox G}
    (h : r ≠ roomId) : (s.updateRoom roomId room).rooms r = s.rooms r := if_neg h

section Agree

variable {roomId : String} {s t : RelayInbox G}

theorem AgreeFor.refl_opened (groups : String → G) :
    AgreeFor roomId (opened groups) (opened groups) where
  generation := rfl
  room := rfl
  seen := rfl

/-- A lookup that finds no mark of another room comes out the same. -/
theorem AgreeFor.hasSeen_eq (h : AgreeFor roomId s t) {id : String}
    (hown : s.hasSeen id = true → ⟨id, roomId⟩ ∈ s.seen) : s.hasSeen id = t.hasSeen id := by
  rw [Bool.eq_iff_iff]
  constructor
  · intro hs
    have hmem : (⟨id, roomId⟩ : SeenId) ∈ t.seen := by
      rw [← h.seen]
      exact List.mem_filter.mpr ⟨hown hs, decide_eq_true rfl⟩
    exact List.any_eq_true.mpr ⟨_, hmem, decide_eq_true rfl⟩
  · intro ht
    obtain ⟨x, hx, hid⟩ := List.any_eq_true.mp ht
    rw [← h.seen] at hx
    exact List.any_eq_true.mpr ⟨x, List.mem_of_mem_filter hx, hid⟩

theorem AgreeFor.updateRoom (h : AgreeFor roomId s t) (room : RoomInbox G) :
    AgreeFor roomId (s.updateRoom roomId room) (t.updateRoom roomId room) where
  generation := h.generation
  room := by rw [updateRoom_self, updateRoom_self]
  seen := h.seen

theorem AgreeFor.updateRoom_of_ne (h : AgreeFor roomId s t) {r : String} (hne : r ≠ roomId)
    (room : RoomInbox G) : AgreeFor roomId (s.updateRoom r room) t where
  generation := h.generation
  room := (RelayInbox.updateRoom_of_ne (Ne.symm hne)).trans h.room
  seen := h.seen

theorem AgreeFor.mark (h : AgreeFor roomId s t) (id : String) :
    AgreeFor roomId (s.mark roomId id) (t.mark roomId id) where
  generation := h.generation
  room := h.room
  seen := by
    show (s.seen ++ [SeenId.mk id roomId]).filter _ = t.seen ++ [SeenId.mk id roomId]
    rw [List.filter_append, h.seen]
    simp

theorem AgreeFor.mark_of_ne (h : AgreeFor roomId s t) {r : String} (hne : r ≠ roomId)
    (id : String) : AgreeFor roomId (s.mark r id) t where
  generation := h.generation
  room := h.room
  seen := by
    show (s.seen ++ [SeenId.mk id r]).filter _ = t.seen
    rw [List.filter_append, h.seen]
    simp [hne]

/-- The room's own actions come out the same. -/
theorem AgreeFor.step (h : AgreeFor roomId s t) {a : InboxAction Env}
    (ha : OwnMarks engine me s a) (hmine : concerns roomId a = true) :
    AgreeFor roomId (step engine me s a).1 (step engine me t a).1 ∧
      (step engine me s a).2 = (step engine me t a).2 := by
  cases a with
  | receive m =>
    obtain rfl : m.roomId = roomId := of_decide_eq_true hmine
    show AgreeFor _ (s.receive m).1 (t.receive m).1 ∧ (s.receive m).2 = (t.receive m).2
    unfold RelayInbox.receive
    rw [h.hasSeen_eq ha, h.room, h.generation]
    split
    · exact ⟨h, rfl⟩
    · exact ⟨h.updateRoom _, rfl⟩
  | start r generation =>
    obtain rfl : r = roomId := of_decide_eq_true hmine
    show AgreeFor _ (s.start r generation).1 (t.start r generation).1 ∧
      (s.start r generation).2 = (t.start r generation).2
    unfold RelayInbox.start
    rw [h.room, h.generation]
    dsimp only
    split
    · exact ⟨h, rfl⟩
    split
    · exact ⟨h, rfl⟩
    next task htask =>
    have hown := ha task (by rw [h.room]; exact htask)
    rw [h.hasSeen_eq hown]
    split
    · exact ⟨h.updateRoom _, rfl⟩
    split
    · exact ⟨h.updateRoom _, rfl⟩
    · exact ⟨h.updateRoom _, rfl⟩
  | finish r generation env =>
    obtain rfl : r = roomId := of_decide_eq_true hmine
    show AgreeFor _ (s.finish engine me r generation env).1 (t.finish engine me r generation env).1 ∧
      (s.finish engine me r generation env).2 = (t.finish engine me r generation env).2
    unfold RelayInbox.finish
    rw [h.room]
    dsimp only
    split
    · exact ⟨h, rfl⟩
    split
    · exact ⟨h.updateRoom _, rfl⟩
    · exact ⟨h.updateRoom _, rfl⟩
    · exact ⟨(h.updateRoom _).mark _, rfl⟩
    · exact ⟨(h.updateRoom _).mark _, rfl⟩
  | publish r id =>
    obtain rfl : r = roomId := of_decide_eq_true hmine
    exact ⟨h.mark id, rfl⟩
  | resubscribe =>
    refine ⟨⟨?_, h.room, h.seen⟩, rfl⟩
    show s.generation + 1 = t.generation + 1
    rw [h.generation]

/-- Every event is one of the room that acts. -/
theorem roomId_of_mem_step {a : InboxAction Env} {e : InboxEvent}
    (he : e ∈ (RelayInbox.step engine me s a).2) : concerns e.roomId a = true := by
  cases a with
  | receive m =>
    change e ∈ (s.receive m).2 at he
    unfold RelayInbox.receive at he
    split at he
    · obtain rfl := List.mem_singleton.mp he
      exact decide_eq_true rfl
    · cases he
  | start r generation =>
    change e ∈ (s.start r generation).2 at he
    unfold RelayInbox.start at he
    dsimp only at he
    split at he
    · cases he
    split at he
    · cases he
    split at he
    · cases he
    split at he
    · obtain rfl := List.mem_singleton.mp he
      exact decide_eq_true rfl
    · cases he
  | finish r generation env =>
    change e ∈ (s.finish engine me r generation env).2 at he
    unfold RelayInbox.finish at he
    dsimp only at he
    split at he
    · cases he
    split at he
    · cases he
    · obtain rfl := List.mem_singleton.mp he
      exact decide_eq_true rfl
    · obtain rfl := List.mem_singleton.mp he
      exact decide_eq_true rfl
    · simp only [List.mem_cons, List.not_mem_nil, or_false] at he
      rcases he with rfl | rfl | rfl <;> exact decide_eq_true rfl
  | publish r id =>
    obtain rfl := List.mem_singleton.mp he
    exact decide_eq_true rfl
  | resubscribe => cases he

/-- The other rooms' actions neither show nor break the agreement. -/
theorem AgreeFor.step_other (h : AgreeFor roomId s t) {a : InboxAction Env}
    (hother : concerns roomId a = false) :
    AgreeFor roomId (RelayInbox.step engine me s a).1 t := by
  cases a with
  | receive m =>
    have hne : m.roomId ≠ roomId := of_decide_eq_false hother
    show AgreeFor _ (s.receive m).1 t
    unfold RelayInbox.receive
    split
    · exact h
    · exact h.updateRoom_of_ne hne _
  | start r generation =>
    have hne : r ≠ roomId := of_decide_eq_false hother
    show AgreeFor _ (s.start r generation).1 t
    unfold RelayInbox.start
    dsimp only
    split
    · exact h
    split
    · exact h
    split
    · exact h.updateRoom_of_ne hne _
    split
    · exact h.updateRoom_of_ne hne _
    · exact h.updateRoom_of_ne hne _
  | finish r generation env =>
    have hne : r ≠ roomId := of_decide_eq_false hother
    show AgreeFor _ (s.finish engine me r generation env).1 t
    unfold RelayInbox.finish
    dsimp only
    split
    · exact h
    split
    · exact h.updateRoom_of_ne hne _
    · exact h.updateRoom_of_ne hne _
    · exact (h.updateRoom_of_ne hne _).mark_of_ne hne _
    · exact (h.updateRoom_of_ne hne _).mark_of_ne hne _
  | publish r id => exact h.mark_of_ne (of_decide_eq_false hother) id
  | resubscribe => cases hother

end Agree

/-! ### Once, and not dropped for nothing -/

/-- What the events so far say about the inbox; `admitted` are the messages that the relay sends. -/
structure Accounted (admitted : MlsRelayMessage → Prop) (s : RelayInbox G)
    (events : List InboxEvent) : Prop where
  tasks : ∀ r, ∀ task ∈ (s.rooms r).waiting ++ (s.rooms r).active,
    task.message.roomId = r ∧ admitted task.message
  used : ∀ r id, .routed r id ∈ events →
    ∃ m, admitted m ∧ m.roomId = r ∧ m.id = id ∧ engine.Used (s.rooms r).group m
  once : ∀ r id, events.count (.routed r id) ≤ 1
  paired : ∀ r id, .decrypted r id ∈ events → .routed r id ∈ events
  seen : ∀ x ∈ s.seen, .marked x.roomId x.id ∈ events
  kept : ∀ r id, .dropped r id ∈ events → .marked r id ∈ events

/-- Events that route nothing: marks, and drops of marked ids. -/
@[grind =] def Quiet (s : RelayInbox G) (e : InboxEvent) : Prop :=
  (∃ r id, e = .marked r id) ∨ ∃ r id, e = .dropped r id ∧ ⟨id, r⟩ ∈ s.seen

variable {engine me} {admitted : MlsRelayMessage → Prop} {s s' : RelayInbox G}
  {events new : List InboxEvent}

theorem Accounted.opened (groups : String → G) :
    Accounted engine admitted (opened groups) [] where
  tasks := nofun
  used := nofun
  once _ _ := Nat.zero_le 1
  paired := nofun
  seen := nofun
  kept := nofun

/-- A step that routes nothing. -/
theorem Accounted.quiet (h : Accounted engine admitted s events)
    (htasks : ∀ r, ∀ task ∈ (s'.rooms r).waiting ++ (s'.rooms r).active,
      task ∈ (s.rooms r).waiting ++ (s.rooms r).active ∨
        task.message.roomId = r ∧ admitted task.message)
    (hused : ∀ r m, engine.Used (s.rooms r).group m → engine.Used (s'.rooms r).group m)
    (hseen : ∀ x ∈ s'.seen, x ∈ s.seen ∨ .marked x.roomId x.id ∈ new)
    (hnew : ∀ e ∈ new, Quiet s e) : Accounted engine admitted s' (events ++ new) where
  tasks r task htask := (htasks r task htask).elim (h.tasks r task) id
  used := by
    intro r id hmem
    rcases List.mem_append.mp hmem with hold | hin
    · obtain ⟨m, hadm, hr, hid, hu⟩ := h.used r id hold
      exact ⟨m, hadm, hr, hid, hused r m hu⟩
    · rcases hnew _ hin with ⟨_, _, he⟩ | ⟨_, _, he, -⟩ <;> cases he
  once := by
    intro r id
    have hzero : new.count (.routed r id) = 0 := by
      refine List.count_eq_zero.mpr fun hin ↦ ?_
      rcases hnew _ hin with ⟨_, _, he⟩ | ⟨_, _, he, -⟩ <;> cases he
    rw [List.count_append, hzero]
    exact h.once r id
  paired := by
    intro r id hmem
    rcases List.mem_append.mp hmem with hold | hin
    · exact List.mem_append_left _ (h.paired r id hold)
    · rcases hnew _ hin with ⟨_, _, he⟩ | ⟨_, _, he, -⟩ <;> cases he
  seen x hx := (hseen x hx).elim (fun hold ↦ List.mem_append_left _ (h.seen x hold))
    (List.mem_append_right _)
  kept := by
    intro r id hmem
    rcases List.mem_append.mp hmem with hold | hin
    · exact List.mem_append_left _ (h.kept r id hold)
    · rcases hnew _ hin with ⟨_, _, he⟩ | ⟨r', id', he, hmark⟩
      · cases he
      · obtain ⟨rfl, rfl⟩ := InboxEvent.dropped.inj he
        exact List.mem_append_left _ (h.seen _ hmark)

/-- What an update of one room's tasks needs. -/
theorem mem_tasks_updateRoom {roomId r : String} {room : RoomInbox G} {task : ReceiveTask}
    (h : task ∈ ((s.updateRoom roomId room).rooms r).waiting ++
      ((s.updateRoom roomId room).rooms r).active) :
    r = roomId ∧ task ∈ room.waiting ++ room.active ∨
      task ∈ (s.rooms r).waiting ++ (s.rooms r).active := by
  by_cases hr : r = roomId
  · subst hr
    rw [updateRoom_self] at h
    exact .inl ⟨rfl, h⟩
  · rw [updateRoom_of_ne hr] at h
    exact .inr h

theorem used_updateRoom {roomId : String} {room : RoomInbox G}
    (hgroup : ∀ m, engine.Used (s.rooms roomId).group m → engine.Used room.group m)
    (r : String) (m : MlsRelayMessage) (h : engine.Used (s.rooms r).group m) :
    engine.Used ((s.updateRoom roomId room).rooms r).group m := by
  by_cases hr : r = roomId
  · subst hr
    rw [updateRoom_self]
    exact hgroup m h
  · rw [updateRoom_of_ne hr]
    exact h

/-- A room whose tasks only become fewer or move on. -/
theorem Accounted.updateRoom (h : Accounted engine admitted s events) {roomId : String}
    {room : RoomInbox G} {seen : List SeenId}
    (htasks : ∀ task ∈ room.waiting ++ room.active,
      task ∈ (s.rooms roomId).waiting ++ (s.rooms roomId).active ∨
        task.message.roomId = roomId ∧ admitted task.message)
    (hgroup : ∀ m, engine.Used (s.rooms roomId).group m → engine.Used room.group m)
    (hseen : ∀ x ∈ seen, x ∈ s.seen ∨ .marked x.roomId x.id ∈ new)
    (hnew : ∀ e ∈ new, Quiet s e) :
    Accounted engine admitted { s.updateRoom roomId room with seen := seen } (events ++ new) := by
  refine h.quiet (fun r task htask ↦ ?_) (used_updateRoom hgroup) hseen hnew
  rcases mem_tasks_updateRoom htask with ⟨rfl, hmem⟩ | hmem
  · exact htasks task hmem
  · exact .inl hmem

theorem Accounted.receive (h : Accounted engine admitted s events) {m : MlsRelayMessage}
    (hadm : admitted m) (hown : s.hasSeen m.id = true → ⟨m.id, m.roomId⟩ ∈ s.seen) :
    Accounted engine admitted (s.receive m).1 (events ++ (s.receive m).2) := by
  unfold RelayInbox.receive
  split
  · next hseen =>
    refine h.quiet (fun _ _ ↦ .inl) (fun _ _ ↦ id) (fun _ ↦ .inl) fun e he ↦ ?_
    obtain rfl := List.mem_singleton.mp he
    exact .inr ⟨_, _, rfl, hown hseen⟩
  · refine h.updateRoom (fun task htask ↦ ?_) (fun _ ↦ id) (fun _ ↦ .inl) nofun
    simp only [List.mem_append, List.mem_singleton] at htask ⊢
    rcases htask with (hw | rfl) | ha
    · exact .inl (.inl hw)
    · exact .inr ⟨rfl, hadm⟩
    · exact .inl (.inr ha)

theorem Accounted.start (h : Accounted engine admitted s events) {roomId : String}
    {generation : ℕ}
    (hown : ∀ task ∈ (s.rooms roomId).waiting.find? (·.generation = generation),
      s.hasSeen task.message.id = true → ⟨task.message.id, roomId⟩ ∈ s.seen) :
    Accounted engine admitted (s.start roomId generation).1
      (events ++ (s.start roomId generation).2) := by
  have hrest : ∀ task ∈ (s.rooms roomId).waiting.eraseP (·.generation = generation) ++
      (s.rooms roomId).active, task ∈ (s.rooms roomId).waiting ++ (s.rooms roomId).active ∨
        task.message.roomId = roomId ∧ admitted task.message := by
    intro task htask
    rcases List.mem_append.mp htask with hw | ha
    · exact .inl (List.mem_append_left _ (List.mem_of_mem_eraseP hw))
    · exact .inl (List.mem_append_right _ ha)
  unfold RelayInbox.start
  dsimp only
  split
  · rw [List.append_nil]
    exact h
  split
  · rw [List.append_nil]
    exact h
  next task htask =>
  split
  · exact h.updateRoom hrest (fun _ ↦ id) (fun _ ↦ .inl) nofun
  split
  · next hseen =>
    refine h.updateRoom hrest (fun _ ↦ id) (fun _ ↦ .inl) fun e he ↦ ?_
    obtain rfl := List.mem_singleton.mp he
    exact .inr ⟨_, _, rfl, hown task htask hseen⟩
  · refine h.updateRoom (fun other hother ↦ ?_) (fun _ ↦ id) (fun _ ↦ .inl) nofun
    rw [← List.append_assoc] at hother
    rcases List.mem_append.mp hother with hold | hnew
    · exact hrest other hold
    · obtain rfl := List.mem_singleton.mp hnew
      exact .inl (List.mem_append_left _ (List.mem_of_find?_eq_some htask))

/-- A message is routed that was not routed before. -/
theorem Accounted.route (h : Accounted engine admitted s events) {m : MlsRelayMessage}
    (hadm : admitted m) (hused : engine.Used (s.rooms m.roomId).group m)
    (hfresh : .routed m.roomId m.id ∉ events) :
    Accounted engine admitted (s.mark m.roomId m.id)
      (events ++ [.decrypted m.roomId m.id, .routed m.roomId m.id, .marked m.roomId m.id]) where
  tasks := h.tasks
  used := by
    intro r id hmem
    simp only [List.mem_append, List.mem_cons, InboxEvent.routed.injEq, reduceCtorEq,
      List.not_mem_nil, or_false, false_or] at hmem
    rcases hmem with hold | ⟨rfl, rfl⟩
    · exact h.used r id hold
    · exact ⟨m, hadm, rfl, rfl, hused⟩
  once := by
    intro r id
    rw [List.count_append]
    by_cases hsame : r = m.roomId ∧ id = m.id
    · obtain ⟨rfl, rfl⟩ := hsame
      rw [List.count_eq_zero.mpr hfresh]
      simp
    · have hzero : [InboxEvent.decrypted m.roomId m.id, .routed m.roomId m.id,
          .marked m.roomId m.id].count (.routed r id) = 0 := by
        refine List.count_eq_zero.mpr fun hin ↦ hsame ?_
        simpa using hin
      rw [hzero]
      exact h.once r id
  paired := by
    intro r id hmem
    simp only [List.mem_append, List.mem_cons, InboxEvent.decrypted.injEq, reduceCtorEq,
      List.not_mem_nil, or_false] at hmem ⊢
    rcases hmem with hold | ⟨rfl, rfl⟩
    · exact .inl (h.paired r id hold)
    · simp
  seen := by
    intro x hx
    rcases List.mem_append.mp hx with hold | hnew
    · exact List.mem_append_left _ (h.seen x hold)
    · obtain rfl := List.mem_singleton.mp hnew
      simp
  kept := by
    intro r id hmem
    simp only [List.mem_append, List.mem_cons, reduceCtorEq, List.not_mem_nil, or_false] at hmem
    exact List.mem_append_left _ (h.kept r id hmem)

theorem Accounted.finish (h : Accounted engine admitted s events)
    (hfunctional : ∀ m m', admitted m → admitted m' → m.roomId = m'.roomId → m.id = m'.id → m = m')
    {roomId : String} {generation : ℕ} {env : Env}
    (hlost : ∀ task ∈ (s.rooms roomId).active.find? (·.generation = generation),
      (handle engine me (s.rooms roomId).group task.message env).2 ≠ .lost) :
    Accounted engine admitted (s.finish engine me roomId generation env).1
      (events ++ (s.finish engine me roomId generation env).2) := by
  unfold RelayInbox.finish
  dsimp only
  split
  · rw [List.append_nil]
    exact h
  next task htask =>
  have hmem : task ∈ (s.rooms roomId).active := List.mem_of_find?_eq_some htask
  obtain ⟨hroom, hadm⟩ := h.tasks roomId task (List.mem_append_right _ hmem)
  obtain ⟨hfirst, hmono⟩ := handle_used engine me (s.rooms roomId).group task.message env
  have hrest : ∀ other ∈ (s.rooms roomId).waiting ++
      (s.rooms roomId).active.eraseP (·.generation = generation),
      other ∈ (s.rooms roomId).waiting ++ (s.rooms roomId).active ∨
        other.message.roomId = roomId ∧ admitted other.message := by
    intro other hother
    rcases List.mem_append.mp hother with hw | ha
    · exact .inl (List.mem_append_left _ hw)
    · exact .inl (List.mem_append_right _ (List.mem_of_mem_eraseP ha))
  split
  · exact h.updateRoom hrest hmono (fun _ ↦ .inl) nofun
  · next hcase => exact absurd hcase (hlost task htask)
  · refine h.updateRoom hrest hmono (fun x hx ↦ ?_) fun e he ↦ ?_
    · rcases List.mem_append.mp hx with hold | hnew
      · exact .inl hold
      · obtain rfl := List.mem_singleton.mp hnew
        exact .inr List.mem_cons_self
    · obtain rfl := List.mem_singleton.mp he
      exact .inl ⟨_, _, rfl⟩
  · next hcase =>
    obtain ⟨hunused, hnow⟩ := hfirst hcase
    subst hroom
    have hfresh : .routed task.message.roomId task.message.id ∉ events := by
      intro hold
      obtain ⟨m, hm, hr, hid, hu⟩ := h.used _ _ hold
      exact hunused (hfunctional m _ hm hadm hr hid ▸ hu)
    have hquiet : Accounted engine admitted (s.updateRoom task.message.roomId
        { s.rooms task.message.roomId with
          active := (s.rooms task.message.roomId).active.eraseP (·.generation = generation)
          group := (handle engine me (s.rooms task.message.roomId).group task.message env).1 })
        (events ++ []) :=
      h.updateRoom hrest hmono (fun _ ↦ .inl) nofun
    rw [List.append_nil] at hquiet
    refine hquiet.route hadm ?_ hfresh
    rw [updateRoom_self]
    exact hnow

/-! ### Runs -/

/-- The relay sends one message under an id of a room, however often. -/
def RelayAdmits (as : List (InboxAction Env)) : Prop :=
  ∀ m m', .receive m ∈ as → .receive m' ∈ as → m.roomId = m'.roomId → m.id = m'.id → m = m'

variable (engine me)

/-- Every message that is decrypted is routed exactly once; a message is dropped only when its own
room has dealt with its id; and what happens to a room is what happens without the others. -/
structure RoutedOncePerRoom (groups : String → G) (as : List (InboxAction Env)) : Prop where
  once : ∀ r id, .decrypted r id ∈ (Machine.run (step engine me) (.opened groups) as).2 →
    (Machine.run (step engine me) (.opened groups) as).2.count (.routed r id) = 1
  kept : ∀ r id, .dropped r id ∈ (Machine.run (step engine me) (.opened groups) as).2 →
    .marked r id ∈ (Machine.run (step engine me) (.opened groups) as).2
  isolated : ∀ r,
    (Machine.run (step engine me) (.opened groups) as).2.filter (·.roomId = r) =
      (Machine.run (step engine me) (.opened groups) (as.filter (concerns r))).2.filter
        (·.roomId = r)

variable {engine me}

/-- **The step lemma** of the account. -/
theorem Accounted.step (h : Accounted engine admitted s events)
    (hfunctional : ∀ m m', admitted m → admitted m' → m.roomId = m'.roomId → m.id = m'.id → m = m')
    {a : InboxAction Env} (ha : OwnMarks engine me s a) (hadm : ∀ m, a = .receive m → admitted m) :
    Accounted engine admitted (RelayInbox.step engine me s a).1
      (events ++ (RelayInbox.step engine me s a).2) := by
  cases a with
  | receive m => exact h.receive (hadm m rfl) ha
  | start roomId generation => exact h.start ha
  | finish roomId generation env => exact h.finish hfunctional ha
  | publish roomId id =>
    refine h.quiet (fun _ _ ↦ .inl) (fun _ _ h ↦ h) (fun x hx ↦ ?_) fun e he ↦ ?_
    · rcases List.mem_append.mp hx with hold | hnew
      · exact .inl hold
      · obtain rfl := List.mem_singleton.mp hnew
        exact .inr List.mem_cons_self
    · obtain rfl := List.mem_singleton.mp he
      exact .inl ⟨_, _, rfl⟩
  | resubscribe => exact h.quiet (fun _ _ ↦ .inl) (fun _ _ h ↦ h) (fun _ ↦ .inl) nofun

/-- **Messages are routed once per room, and rooms do not meet**, in every run in which no lookup
finds a mark of another room and nothing throws between decrypting and routing. -/
theorem routedOncePerRoom_of_ownMarks {groups : String → G} {as : List (InboxAction Env)}
    (hadmits : RelayAdmits as)
    (has : Machine.Along (RelayInbox.step engine me) (OwnMarks engine me) (.opened groups) as) :
    RoutedOncePerRoom engine me groups as := by
  have hboth := has.and (Machine.along_of_forall (Q := (· ∈ as)) (fun _ h ↦ h) _)
  have hstep : ∀ s events (a : InboxAction Env),
      Accounted engine (fun m ↦ .receive m ∈ as) s events → OwnMarks engine me s a ∧ a ∈ as →
      Accounted engine (fun m ↦ .receive m ∈ as) (RelayInbox.step engine me s a).1
        (events ++ (RelayInbox.step engine me s a).2) := by
    intro s events a h ha
    refine h.step hadmits ha.1 fun m hm ↦ ?_
    rw [← hm]
    exact ha.2
  have hrun := Machine.run_invariant hstep (.opened groups) hboth
  rw [List.nil_append] at hrun
  refine ⟨fun r id hdec ↦ ?_, hrun.kept, fun r ↦ ?_⟩
  · have hle := hrun.once r id
    have hpos := List.count_pos_iff.mpr (hrun.paired r id hdec)
    omega
  · have hmine : ∀ s t (a : InboxAction Env), AgreeFor r s t → OwnMarks engine me s a →
        concerns r a = true →
        AgreeFor r (RelayInbox.step engine me s a).1 (RelayInbox.step engine me t a).1 ∧
          (RelayInbox.step engine me s a).2.filter (·.roomId = r) =
            (RelayInbox.step engine me t a).2.filter (·.roomId = r) := by
      intro s t a hagree ha hconcerns
      obtain ⟨hnext, hevents⟩ := hagree.step engine me ha hconcerns
      exact ⟨hnext, by rw [hevents]⟩
    have hother : ∀ s t (a : InboxAction Env), AgreeFor r s t → OwnMarks engine me s a →
        concerns r a = false → AgreeFor r (RelayInbox.step engine me s a).1 t ∧
          (RelayInbox.step engine me s a).2.filter (·.roomId = r) = [] := by
      intro s t a hagree _ hconcerns
      refine ⟨hagree.step_other engine me hconcerns, List.filter_eq_nil_iff.mpr fun e he hr ↦ ?_⟩
      have hroom := roomId_of_mem_step engine me he
      rw [of_decide_eq_true hr, hconcerns] at hroom
      cases hroom
    exact Machine.run_filter hmine hother (AgreeFor.refl_opened groups) has

/-! ### Two rooms -/

/-- An engine at epoch 0 that decrypts every message once, each from leaf 0. -/
def onceEngine : MlsEngine (List MlsRelayMessage) Unit where
  epoch := fun _ _ ↦ some 0
  process := fun used m _ ↦
    if m ∈ used then (used, .threw)
    else (used ++ [m], .application ⟨0, 0, some ⟨m.id, 0, m.teamId, m.roomId, "chat.message",
      m.senderUserId, m.senderDeviceId, m.createdAt⟩⟩)
  roster := fun _ _ ↦ some [⟨0, "github:2", "device-b"⟩]
  recovers := fun _ ↦ true
  routes := fun _ ↦ true
  Used := fun used m ↦ m ∈ used
  used_of_application := by
    intro used m _ incoming h
    by_cases hm : m ∈ used
    · rw [if_pos hm] at h
      cases h
    · rw [if_neg hm]
      exact ⟨hm, List.mem_append_right _ List.mem_cons_self⟩
  used_mono := by
    intro used m m' _ h
    split
    · exact h
    · exact List.mem_append_left _ h

def alice : LocalIdentity := ⟨"github:1", "device-a"⟩

/-- What Bob sends to a room. -/
def fromBob (roomId id : String) : MlsRelayMessage where
  id := id
  teamId := "team-1"
  roomId := roomId
  senderDeviceId := "device-b"
  senderUserId := "github:2"
  createdAt := "2026-01-01T00:00:00.000Z"
  messageType := .application
  epochHint := 0
  mlsMessage := "AAAA"

/-- One message in two rooms each, and a replay. -/
def twoRoomsRun : List (InboxAction Unit) :=
  [.receive (fromBob "room-1" "x"), .receive (fromBob "room-2" "y"), .start "room-1" 0,
    .start "room-2" 0, .finish "room-2" 0 (), .finish "room-1" 0 (),
    .receive (fromBob "room-1" "x")]

instance (s : RelayInbox (List MlsRelayMessage)) (a : InboxAction Unit) :
    Decidable (OwnMarks onceEngine alice s a) := by
  cases a <;> unfold OwnMarks <;> infer_instance

theorem routedOncePerRoom_twoRoomsRun :
    RoutedOncePerRoom onceEngine alice (fun _ ↦ []) twoRoomsRun := by
  have hadmits : RelayAdmits twoRoomsRun := by
    intro m m' hm hm'
    simp only [twoRoomsRun, List.mem_cons, InboxAction.receive.injEq, reduceCtorEq,
      List.not_mem_nil, or_false, false_or] at hm hm'
    rcases hm with rfl | rfl | rfl <;> rcases hm' with rfl | rfl | rfl <;> decide
  exact routedOncePerRoom_of_ownMarks hadmits (by decide)

/-- A member of two rooms makes a message of the second disappear: it carries the id of one that it
sent to the first. -/
def suppressingRun : List (InboxAction Unit) :=
  [.receive (fromBob "room-1" "x"), .start "room-1" 0, .finish "room-1" 0 (),
    .receive (fromBob "room-2" "x"), .start "room-2" 0, .finish "room-2" 0 ()]

theorem suppressed_by_other_room :
    RelayAdmits suppressingRun ∧ ¬RoutedOncePerRoom onceEngine alice (fun _ ↦ []) suppressingRun ∧
      InboxEvent.routed "room-2" "x" ∉
        (Machine.run (step onceEngine alice) (.opened fun _ ↦ []) suppressingRun).2 ∧
      InboxEvent.routed "room-2" "x" ∈
        (Machine.run (step onceEngine alice) (.opened fun _ ↦ [])
          (suppressingRun.filter (concerns "room-2"))).2 := by
  have hadmits : RelayAdmits suppressingRun := by
    intro m m' hm hm'
    simp only [suppressingRun, List.mem_cons, InboxAction.receive.injEq, reduceCtorEq,
      List.not_mem_nil, or_false, false_or] at hm hm'
    rcases hm with rfl | rfl <;> rcases hm' with rfl | rfl <;> decide
  refine ⟨hadmits, fun h ↦ ?_, by decide, by decide⟩
  have hkept := h.kept "room-2" "x" (by decide)
  exact absurd hkept (by decide)

end RelayInbox

end MultAIplayer.Desktop
