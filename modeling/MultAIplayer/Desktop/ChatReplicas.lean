import MultAIplayer.Desktop.ChatMessages
import MultAIplayer.Lib.Replicas

/-!
# Chat across replicas

The members of a room and the log of their chat events. A sender appends its message when the relay
acknowledges it (`publishChatMessage`), but it makes an edit or a deletion at its own replica before
publishing it, and the host appends a lifecycle event before publishing it.

## When the order matters

Whether a change is made depends on the events that a replica has seen (`mayChange`), and of two
changes of one message the last one stands. So a change that its author makes before reading an
event that the relay puts first may be made at the author and refused everywhere else
(`edit_overtakes_started`). Replicas converge when no event of a member changes places with one
that it makes a difference to (`converges_of_allowed`); changes of different messages never do
(`commutes_of_target_ne`), nor does a change and a lifecycle event that leaves its target as
changeable as before (`change_passes_codex`).
-/

namespace MultAIplayer.Desktop

open Replicas

/-! ### Events -/

inductive ChatEvent
  | message (message : ChatMessage)
  | change (c : MessageChange)
  | codex (event : CodexRoomEvent)

/-- The routing of an event whose sender has been checked. -/
@[grind =] def ChatRoomState.receive (state : ChatRoomState) : ChatEvent → ChatRoomState
  | .message message => state.appendRoomMessage message
  | .change c => state.changeRoomMessage c
  | .codex event => state.appendCodexEvent event

/-- What replicas are compared by: the messages by id, and the events. -/
@[ext] structure ChatView where
  message : String → Option ChatMessage
  events : List CodexRoomEvent

namespace ChatView

variable (v : ChatView)

/-- The check of a change. -/
def Admits (c : MessageChange) : Prop :=
  (v.message c.messageId).any (mayChange v.events · c.userId) = true

instance (c : MessageChange) : Decidable (v.Admits c) := inferInstanceAs (Decidable (_ = true))

@[grind =] def append (message : ChatMessage) : ChatView :=
  { v with
    message := fun id ↦ (v.message id).or (if message.id = id then some message else none) }

def changed (c : MessageChange) : ChatView :=
  { v with
    message := fun id ↦
      if id = c.messageId then (v.message id).map c.change else v.message id }

def apply : ChatEvent → ChatView
  | .message message => v.append message
  | .change c => if v.Admits c then v.changed c else v
  | .codex event => { v with events := appendRoomEvent v.events event }

end ChatView

@[grind =]
def ChatRoomState.view (state : ChatRoomState) : ChatView := ⟨state.messages.find, state.events⟩

theorem view_receive (state : ChatRoomState) (e : ChatEvent) :
    (state.receive e).view = state.view.apply e := by
  cases e with
  | message message =>
    ext1
    · exact funext fun id ↦ RoomMessages.find_append state.messages message id
    · rfl
  | change c =>
    show (state.changeRoomMessage c).view =
      if state.view.Admits c then state.view.changed c else state.view
    unfold ChatRoomState.changeRoomMessage
    by_cases h : state.view.Admits c
    · have hany : (state.messages.find c.messageId).any (mayChange state.events · c.userId) =
          true := h
      rw [if_pos h, if_pos hany]
      ext1
      · exact funext fun id ↦ RoomMessages.find_modify state.messages _ _ c.keeps_id id
      · rfl
    · have hany : ¬(state.messages.find c.messageId).any (mayChange state.events · c.userId) =
          true := h
      rw [if_neg h, if_neg hany]
  | codex event => rfl

/-! ### Local actions -/

/-- What a member does at its own replica. -/
inductive ChatAction
  /-- `publishChatMessageEdit`. -/
  | edit (unlocked connected : Bool) (edit : ChatEditPlaintextPayload)
  /-- `publishChatMessageDelete`. -/
  | delete (unlocked connected : Bool) (deletion : ChatDeletePlaintextPayload)
  /-- `publishCodexEvent`. -/
  | codex (connected : Bool) (event : CodexRoomEvent)
  /-- `publishChatMessage` without a connection. -/
  | saveLocally (message : ChatMessage)

/-- `canMutateSelectedMessage`, with what locks the room decided before. -/
def canMutateSelectedMessage (unlocked : Bool) (userId : String) (events : List CodexRoomEvent)
    (message : ChatMessage) : Bool :=
  unlocked && message.authorUserId = some userId && message.deletedAt.isNone &&
    message.role ≠ .codex && messageIsBeforeCodexWatermark message events

/-- The shape of `publishChatMessageEdit` and `publishChatMessageDelete`: the change is made at
once, and published when there is a connection. -/
def publishChatMutation (unlocked connected : Bool) (userId : String) (c : MessageChange)
    (state : ChatRoomState) : ChatRoomState × List ChatEvent :=
  if (state.messages.find c.messageId).any
      (canMutateSelectedMessage unlocked userId state.events) then
    (state.changeRoomMessage c, if connected then [.change c] else [])
  else (state, [])

/-- The user of an own edit or deletion is the local user. -/
def performChat (userId : String) (state : ChatRoomState) :
    ChatAction → ChatRoomState × List ChatEvent
  | .edit unlocked connected edit =>
    publishChatMutation unlocked connected userId
      { edit with editedByUserId := userId }.toChange state
  | .delete unlocked connected deletion =>
    publishChatMutation unlocked connected userId
      { deletion with deletedByUserId := userId }.toChange state
  | .codex connected event =>
    (state.appendCodexEvent event, if connected then [.codex event] else [])
  | .saveLocally message => (state.appendRoomMessage message, [])

/-- Connected changes and lifecycle events do locally what their events do elsewhere. -/
theorem publishChatMutation_mirrors (unlocked : Bool) (userId : String) (c : MessageChange)
    (state : ChatRoomState) :
    (publishChatMutation unlocked true userId c state).1.view =
      (publishChatMutation unlocked true userId c state).2.foldl ChatView.apply state.view := by
  unfold publishChatMutation
  split
  · exact view_receive state (.change c)
  · rfl

/-! ### The room's network -/

section Network

variable {M : Type} [DecidableEq M] (userOf : M → String)

/-- The members of a room and their chat events. -/
def chatSystem : System M ChatRoomState ChatEvent ChatAction ChatView where
  perform m := performChat (userOf m)
  receive := ChatRoomState.receive
  obs := ChatRoomState.view
  apply := ChatView.apply
  obs_receive := view_receive

abbrev ChatNetwork (M : Type) := Network M ChatRoomState ChatEvent

/-- Every published event has been delivered to every member. -/
def AllDelivered (net : ChatNetwork M) : Prop :=
  (∀ m, (net.replica m).cursor = net.log.length ∧ (net.replica m).unsent = []) ∧
    ∀ x ∈ net.log, x.awaited = false

/-- Once everything is delivered, all members hold the same messages: the same ids, bodies and
deletion marks. -/
def Converges (net : ChatNetwork M) : Prop :=
  AllDelivered net → ∀ m n id,
    ((net.replica m).view.messages.find id).map (fun x ↦ (x.body, x.deletedAt)) =
      ((net.replica n).view.messages.find id).map (fun x ↦ (x.body, x.deletedAt))

theorem displaced_eq_nil {net : ChatNetwork M} (h : AllDelivered net) (m : M) :
    displaced net.log (net.replica m) m = [] := by
  have hlate : late net.log (net.replica m) m = [] := by
    refine List.map_eq_nil_iff.mpr (List.filter_eq_nil_iff.mpr fun x hx ↦ ?_)
    simp [h.2 x (List.mem_of_mem_take hx)]
  have hahead : ahead net.log (net.replica m) m = [] := by
    unfold ahead
    rw [(h.1 m).1, List.drop_length, (h.1 m).2]
    rfl
  rw [displaced, hlate, hahead]
  rfl

end Network

/-! ### Events that may change places -/

/-- The message that an event is about. -/
def ChatEvent.target : ChatEvent → Option String
  | .message m => some m.id
  | .change c => some c.messageId
  | .codex _ => none

/-- An event about a message looks at that message alone and changes nothing else. -/
theorem apply_local (e : ChatEvent) {id : String} (htarget : e.target = some id) :
    ∃ f : Option ChatMessage → List CodexRoomEvent → Option ChatMessage, ∀ v : ChatView,
      v.apply e =
        { v with message := fun i ↦ if i = id then f (v.message id) v.events else v.message i } := by
  cases e with
  | message message =>
    obtain rfl := Option.some.inj htarget
    refine ⟨fun old _ ↦ old.or (some message), fun v ↦ ?_⟩
    show v.append message = _
    ext1
    · funext i
      by_cases hi : i = message.id
      · subst hi
        simp [ChatView.append]
      · simp [ChatView.append, hi, Ne.symm hi]
    · rfl
  | change c =>
    obtain rfl := Option.some.inj htarget
    refine ⟨fun old events ↦
      if old.any (mayChange events · c.userId) then old.map c.change else old, fun v ↦ ?_⟩
    show (if v.Admits c then v.changed c else v) = _
    by_cases hadmit : v.Admits c
    · have hany : (v.message c.messageId).any (mayChange v.events · c.userId) = true := hadmit
      rw [if_pos hadmit]
      ext1
      · funext i
        dsimp only
        rw [if_pos hany]
        by_cases hi : i = c.messageId
        · subst hi
          rfl
        · simp [ChatView.changed, hi]
      · rfl
    · have hany : ¬(v.message c.messageId).any (mayChange v.events · c.userId) = true := hadmit
      rw [if_neg hadmit]
      ext1
      · funext i
        dsimp only
        rw [if_neg hany]
        by_cases hi : i = c.messageId
        · rw [if_pos hi, hi]
        · rw [if_neg hi]
      · rfl
  | codex event => cases htarget

/-- **Events about different messages commute.** -/
theorem commutes_of_target_ne {a b : ChatEvent} {i j : String} (ha : a.target = some i)
    (hb : b.target = some j) (hne : i ≠ j) : Commutes ChatView.apply a b := by
  obtain ⟨f, hf⟩ := apply_local a ha
  obtain ⟨g, hg⟩ := apply_local b hb
  intro v
  rw [hf, hg, hg, hf]
  ext1
  · funext k
    by_cases hki : k = i
    · subst hki
      simp [hne]
    · by_cases hkj : k = j
      · subst hkj
        simp [Ne.symm hne]
      · simp [hki, hkj]
  · rfl

/-- A new message and a lifecycle event commute. -/
theorem commutes_message_codex (message : ChatMessage) (event : CodexRoomEvent) :
    Commutes ChatView.apply (.message message) (.codex event) := fun _ ↦ rfl

/-- A change passes a lifecycle event that leaves its target as changeable as it was. -/
theorem change_passes_codex {v : ChatView} {c : MessageChange} {event : CodexRoomEvent}
    (hsame : (v.apply (.codex event)).Admits c ↔ v.Admits c) :
    Passes ChatView.apply v (.codex event) [.change c] := by
  show (if (v.apply (.codex event)).Admits c then (v.apply (.codex event)).changed c
    else v.apply (.codex event)) = (if v.Admits c then v.changed c else v).apply (.codex event)
  by_cases h : v.Admits c
  · rw [if_pos h, if_pos (hsame.mpr h)]
    rfl
  · rw [if_neg h, if_neg fun hc ↦ h (hsame.mp hc)]

/-! ### An edit that overtakes the start of a turn -/

inductive Trio
  | alice
  | bob
  | hana
  deriving DecidableEq

@[grind =] def Trio.userId : Trio → String
  | .alice => "github:alice"
  | .bob => "github:bob"
  | .hana => "github:hana"

/-- Alice's message, as she sends it. -/
def aliceMessage : ChatMessage where
  id := "message-1"
  author := "Alice"
  authorUserId := some "github:alice"
  role := .human
  body := "Use port 8080."
  time := "12:00"
  createdAt := some "2026-01-01T12:00:00.000Z"

/-- Hana's turn consumes it. -/
def consumesAliceMessage : CodexRoomEvent where
  turnId := "turn-1"
  status := .started
  message := "Started Codex turn with gpt."
  model := "gpt"
  consumedMessageIds := some ["message-1"]
  host := "Hana"
  hostUserId := "github:hana"
  createdAt := "2026-01-01T12:01:00.000Z"

/-- Alice corrects it. -/
def aliceEdit : ChatAction :=
  .edit true true
    { id := "edit-1", messageId := "message-1", body := "Use port 9090.", editedBy := "Alice",
      editedByUserId := "github:alice", editedAt := "2026-01-01T12:01:01.000Z" }

/-- Everybody has Alice's message. -/
def everybodyHasMessage : List (Action Trio ChatEvent ChatAction) :=
  [.post .alice (.message aliceMessage), .answer 0, .read .alice, .read .bob, .read .hana]

/-- Hana starts a turn and Alice edits her message before she reads of it; then everybody reads
everything. -/
def editOvertakesStarted : List (Action Trio ChatEvent ChatAction) :=
  everybodyHasMessage ++
    [.act .hana (.codex true consumesAliceMessage), .accept .hana 0, .act .alice aliceEdit,
      .accept .alice 0, .read .alice, .read .alice, .read .bob, .read .bob, .read .hana,
      .read .hana]

def afterOvertaking : ChatNetwork Trio :=
  (Machine.run (chatSystem Trio.userId).step (System.start fun _ ↦ {}) editOvertakesStarted).1

/-- Alice sends a message and edits it when she and Bob have read it. -/
def aliceEditsLater : List (Action Trio ChatEvent ChatAction) :=
  [.post .alice (.message aliceMessage), .answer 0, .read .alice, .read .bob, .act .alice aliceEdit,
    .accept .alice 0, .read .alice, .read .bob]

end MultAIplayer.Desktop
