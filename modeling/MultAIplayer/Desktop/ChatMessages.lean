import MultAIplayer.Desktop.CodexRuntime
import MultAIplayer.Lib.IsoDate

/-!
# Chat messages of a room

The messages that a desktop replica holds, and the reducers that add, edit and delete them
(`workspaceDataSlice.ts`).

## Distinct ids

`RoomMessages` lists messages with distinct ids: a message whose id is listed is not appended again,
and a change keeps the id. So a message is found by its id, and what the reducers do is one lookup
lemma each (`find_append`, `find_modify`).

## The watermark

A message may be changed until Codex has used it. That is decided from the last 80 lifecycle events
of the replica (`messageIsBeforeCodexWatermark`): a message that an event consumed is fixed, and a
turn that started without saying what it consumed fixes everything that is not newer.
-/

namespace MultAIplayer.Desktop

/-! ### Messages -/

inductive ChatRole
  | human
  | codex
  | system
  deriving DecidableEq

structure ChatAttachment where
  id : String
  name : String
  type : String
  size : ℕ
  deriving DecidableEq

structure ChatMessage where
  id : String
  author : String
  authorUserId : Option String := none
  role : ChatRole
  body : String
  time : String
  createdAt : Option String := none
  editedAt : Option String := none
  editedByUserId : Option String := none
  deletedAt : Option String := none
  deletedBy : Option String := none
  deletedByUserId : Option String := none
  replyTo : Option String := none
  attachments : List ChatAttachment := []
  deriving DecidableEq

structure ChatEditPlaintextPayload where
  id : String
  messageId : String
  body : String
  editedBy : String
  editedByUserId : String
  editedAt : String
  deriving DecidableEq

structure ChatDeletePlaintextPayload where
  id : String
  messageId : String
  deletedBy : String
  deletedByUserId : String
  deletedAt : String
  deriving DecidableEq

/-! ### Lists of messages with distinct ids -/

structure RoomMessages where
  list : List ChatMessage
  nodup : (list.map ChatMessage.id).Nodup
  deriving DecidableEq

namespace RoomMessages

def empty : RoomMessages := ⟨[], by decide⟩

def find (ms : RoomMessages) (id : String) : Option ChatMessage := ms.list.find? (·.id = id)

theorem find_eq_none {ms : RoomMessages} {id : String} (h : id ∉ ms.list.map ChatMessage.id) :
    ms.find id = none := by
  refine List.find?_eq_none.mpr fun m hm heq ↦ h ?_
  exact of_decide_eq_true heq ▸ List.mem_map_of_mem hm

/-- Append a message unless its id is listed. -/
@[grind =] def append (ms : RoomMessages) (message : ChatMessage) : RoomMessages :=
  if h : message.id ∈ ms.list.map ChatMessage.id then ms
  else
    { list := ms.list ++ [message]
      nodup := by
        rw [List.map_append, List.map_singleton]
        exact List.nodup_append.mpr ⟨ms.nodup, List.nodup_singleton _, fun a ha b hb hab ↦
          h (List.mem_singleton.mp hb ▸ hab ▸ ha)⟩ }

/-- Change the message with an id. -/
def modify (ms : RoomMessages) (id : String) (f : ChatMessage → ChatMessage)
    (hf : ∀ m, (f m).id = m.id) : RoomMessages where
  list := ms.list.map fun m ↦ if m.id = id then f m else m
  nodup := by
    have hids : ms.list.map (ChatMessage.id ∘ fun m ↦ if m.id = id then f m else m) =
        ms.list.map ChatMessage.id := by
      refine List.map_congr_left fun m _ ↦ ?_
      show (if m.id = id then f m else m).id = m.id
      split
      · exact hf m
      · rfl
    rw [List.map_map, hids]
    exact ms.nodup

theorem find?_cons_id (m : ChatMessage) (l : List ChatMessage) (id : String) :
    (m :: l).find? (·.id = id) = if m.id = id then some m else l.find? (·.id = id) := by
  rw [List.find?_cons]
  by_cases h : m.id = id <;> simp [h]

/-- **Lookup after an append**: the new message is found unless its id was taken. -/
theorem find_append (ms : RoomMessages) (message : ChatMessage) (id : String) :
    (ms.append message).find id =
      (ms.find id).or (if message.id = id then some message else none) := by
  unfold append
  split
  · next h =>
    by_cases hid : message.id = id
    · subst hid
      obtain ⟨m, hm, heq⟩ := List.mem_map.mp h
      have hsome : (ms.find message.id).isSome = true :=
        List.find?_isSome.mpr ⟨m, hm, decide_eq_true heq⟩
      obtain ⟨m', hm'⟩ := Option.isSome_iff_exists.mp hsome
      rw [hm']
      rfl
    · rw [if_neg hid, Option.or_none]
  · show (ms.list ++ [message]).find? _ = _
    rw [List.find?_append]
    rw [find?_cons_id]
    rfl

/-- **Lookup after a change.** -/
theorem find_modify (ms : RoomMessages) (id : String) (f : ChatMessage → ChatMessage)
    (hf : ∀ m, (f m).id = m.id) (other : String) :
    (ms.modify id f hf).find other =
      if other = id then (ms.find other).map f else ms.find other := by
  unfold find modify
  dsimp only
  induction ms.list with
  | nil => split <;> rfl
  | cons m l ih =>
    have hkeep : (if m.id = id then f m else m).id = m.id := by
      split
      · exact hf m
      · rfl
    rw [List.map_cons, find?_cons_id, find?_cons_id, hkeep, ih]
    by_cases hm : m.id = other
    · rw [if_pos hm, if_pos hm, hm]
      split <;> rfl
    · rw [if_neg hm, if_neg hm]

end RoomMessages

/-! ### The watermark -/

/-- `codexConsumedMessageIds`. -/
def codexConsumedMessageIds (events : List CodexRoomEvent) : List String :=
  events.flatMap fun event ↦ event.consumedMessageIds.getD []

/-- The time of `latestCodexStartedAt`; events whose timestamp is none are skipped. -/
def latestCodexStartedAt (events : List CodexRoomEvent) : Option Instant :=
  events.foldl (fun latest event ↦
    if event.status = .started then
      match IsoDate.parse event.createdAt with
      | some time => if latest.all (· < time) then some time else latest
      | none => latest
    else latest) none

/-- `!event.consumedMessageIds?.length`. -/
def CodexRoomEvent.namesNoMessage (event : CodexRoomEvent) : Bool :=
  (event.consumedMessageIds.getD []).isEmpty

def messageIsBeforeCodexWatermark (message : ChatMessage) (events : List CodexRoomEvent) : Bool :=
  if message.id ∈ codexConsumedMessageIds events then false
  else
    match latestCodexStartedAt (events.filter CodexRoomEvent.namesNoMessage) with
    | none => true
    | some startedTime =>
      match message.createdAt.bind IsoDate.parse with
      | some messageTime => startedTime < messageTime
      | none => false

/-! ### The reducers -/

/-- The part of a room's state that its chat depends on. -/
structure ChatRoomState where
  messages : RoomMessages := .empty
  events : List CodexRoomEvent := []
  deriving DecidableEq

/-- The check of `editRoomMessage` and of `deletableMessageContext`; an empty author is none. -/
def mayChange (events : List CodexRoomEvent) (target : ChatMessage) (userId : String) : Bool :=
  target.deletedAt.isNone && target.authorUserId.all (fun author ↦ author = "" || author = userId) &&
    messageIsBeforeCodexWatermark target events

def ChatEditPlaintextPayload.edited (edit : ChatEditPlaintextPayload) (message : ChatMessage) :
    ChatMessage :=
  { message with
    body := edit.body
    editedAt := some edit.editedAt
    editedByUserId := some edit.editedByUserId }

/-- `deletedChatMessage`. -/
def ChatDeletePlaintextPayload.deleted (deletion : ChatDeletePlaintextPayload)
    (message : ChatMessage) : ChatMessage :=
  { message with
    attachments := []
    body := ""
    deletedAt := some deletion.deletedAt
    deletedBy := some deletion.deletedBy
    deletedByUserId := some deletion.deletedByUserId }

/-- A change of a message by a user. -/
structure MessageChange where
  messageId : String
  userId : String
  change : ChatMessage → ChatMessage
  keeps_id : ∀ m, (change m).id = m.id

def ChatEditPlaintextPayload.toChange (edit : ChatEditPlaintextPayload) : MessageChange where
  messageId := edit.messageId
  userId := edit.editedByUserId
  change := edit.edited
  keeps_id _ := rfl

def ChatDeletePlaintextPayload.toChange (deletion : ChatDeletePlaintextPayload) :
    MessageChange where
  messageId := deletion.messageId
  userId := deletion.deletedByUserId
  change := deletion.deleted
  keeps_id _ := rfl

namespace ChatRoomState

variable (state : ChatRoomState)

def appendRoomMessage (message : ChatMessage) : ChatRoomState :=
  { state with messages := state.messages.append message }

/-- A change is made when its target is there and the check lets the user change it. -/
def changeRoomMessage (c : MessageChange) : ChatRoomState :=
  if (state.messages.find c.messageId).any (mayChange state.events · c.userId) then
    { state with messages := state.messages.modify c.messageId c.change c.keeps_id }
  else state

def editRoomMessage (edit : ChatEditPlaintextPayload) : ChatRoomState :=
  state.changeRoomMessage edit.toChange

def deleteRoomMessage (deletion : ChatDeletePlaintextPayload) : ChatRoomState :=
  state.changeRoomMessage deletion.toChange

def appendCodexEvent (event : CodexRoomEvent) : ChatRoomState :=
  { state with events := appendRoomEvent state.events event }

end ChatRoomState

end MultAIplayer.Desktop
