import MultAIplayer.Desktop.CodexTurnInput

/-!
# The messages of an approved turn

An approval that waits for the host keeps copies of the messages that it was requested for. When the
host approves, `refreshApprovalMessagesFromRoom` (`hooks/codexTurnQueue.ts`) reads those messages
from the room again; a queued turn keeps no copies and takes the messages of the room as they are.

## What was deleted

A deletion empties the copy that the room keeps (`deletedChatMessage`), so two rooms that differ only
in what was deleted from them are equal (`deleteRoomMessages_eq`). The copies of an approval are not
emptied. They are used when nothing that they name is left in the room, and that includes the case
in which everything was deleted: what reaches Codex is free of deleted content exactly when something
is left, or no copy is used that the room does not hold itself (`deletedWithheld_iff`). The same
refresh, where a deletion makes it (`refreshPendingApprovalMessages`), drops such an approval.
-/

namespace MultAIplayer.Desktop

/-! ### Deletions -/

structure RoomMessageDeletion where
  messageId : CodeUnits
  deletedAt : CodeUnits

def deletedChatMessage (message : CodexChatMessage) (deletion : RoomMessageDeletion) :
    CodexChatMessage :=
  { message with body := [], attachments := [], deletedAt := some deletion.deletedAt }

/-- What a deletion that is let through does to the messages of the room. -/
def deleteRoomMessage (messages : List CodexChatMessage) (deletion : RoomMessageDeletion) :
    List CodexChatMessage :=
  messages.map fun message ↦
    if message.id = some deletion.messageId then deletedChatMessage message deletion else message

def deleteRoomMessages (messages : List CodexChatMessage) (deletions : List RoomMessageDeletion) :
    List CodexChatMessage :=
  deletions.foldl deleteRoomMessage messages

/-! ### Approvals -/

def approvalMessageIds (approvalMessages : List CodexChatMessage) : List CodeUnits :=
  approvalMessages.filterMap fun message ↦ truthy message.id

/-- The messages of the room that an approval names and that are left. -/
@[grind =] def refreshedMessages (approvalMessages roomMessages : List CodexChatMessage) :
    List CodexChatMessage :=
  roomMessages.filter fun message ↦
    message.id.any (· ∈ approvalMessageIds approvalMessages) && message.isLive

def refreshApprovalMessagesFromRoom (approvalMessages roomMessages : List CodexChatMessage) :
    List CodexChatMessage :=
  let refreshed := refreshedMessages approvalMessages roomMessages
  if refreshed.isEmpty then approvalMessages.filter CodexChatMessage.isLive else refreshed

/-- The messages of a turn that is approved; a queued turn keeps no copies. -/
def turnMessages (approvalMessages : Option (List CodexChatMessage))
    (currentRoomMessages : List CodexChatMessage) : List CodexChatMessage :=
  match approvalMessages with
  | some messages => refreshApprovalMessagesFromRoom messages currentRoomMessages
  | none => currentRoomMessages

/-- What `approveCodexTurn` sends. -/
def approvedTurnInput (approvalMessages : Option (List CodexChatMessage))
    (currentRoomMessages : List CodexChatMessage) (context : CodexTurnContext) (model : CodeUnits)
    (fullRoomContext : Bool) : CodeUnits :=
  let messages := turnMessages approvalMessages currentRoomMessages
  buildCodexTurnInput messages context.projectPath model (buildCodexTurnSummary messages context)
    fullRoomContext

/-- What an approval keeps of the turn. -/
structure ApprovalSnapshot where
  messages : List CodexChatMessage
  summary : CodexTurnSummary
  deriving DecidableEq

/-- What a deletion makes of the approval that names the message. -/
def refreshPendingApprovalMessages (approval : ApprovalSnapshot)
    (roomMessages : List CodexChatMessage) : Option ApprovalSnapshot :=
  let refreshed := refreshedMessages approval.messages roomMessages
  if refreshed.isEmpty then none
  else
    let delta := messagesSinceLastCodex refreshed
    some
      { messages := refreshed
        summary :=
          { approval.summary with
            messagesSinceLastCodex := delta.length
            attachments :=
              (delta.flatMap CodexChatMessage.attachments).map CodexChatAttachment.summarize } }

/-! ### What differs in what was deleted -/

/-- Copies of one message with any two contents. -/
def SameButContent (message message' : CodexChatMessage) : Prop :=
  message = { message' with body := message.body, attachments := message.attachments }

/-- Messages that differ at most in the contents of those that the deletions are about. -/
def SameButDeleted (deletions : List RoomMessageDeletion)
    (messages messages' : List CodexChatMessage) : Prop :=
  List.Forall₂ (fun message message' ↦ message = message' ∨ SameButContent message message' ∧
    ∃ deletion ∈ deletions, message.id = some deletion.messageId) messages messages'

/-- Copies that differ at most in the contents of messages that the room holds as deleted. -/
def SameButDeletedFrom (roomMessages messages messages' : List CodexChatMessage) : Prop :=
  List.Forall₂ (fun message message' ↦ message = message' ∨ SameButContent message message' ∧
    ∃ id, truthy message.id = some id ∧
      ∃ copy ∈ roomMessages, copy.id = some id ∧ copy.isLive = false) messages messages'

/-- What the turn sends is read from what is left in the room, and does not depend on what was
deleted. -/
structure DeletedWithheld (approvalMessages : Option (List CodexChatMessage))
    (roomMessages : List CodexChatMessage) : Prop where
  /-- Every message is one of the room, as the room holds it. -/
  current : ∀ messages, approvalMessages = some messages →
    ∀ message ∈ refreshApprovalMessagesFromRoom messages roomMessages,
      message ∈ roomMessages ∧ message.isLive = true
  /-- There is none when all that the approval names were deleted. -/
  nothing_left : ∀ messages, approvalMessages = some messages →
    (∀ message ∈ roomMessages, (∃ copy ∈ messages, copy.id = message.id) →
      message.isLive = false) →
    refreshApprovalMessagesFromRoom messages roomMessages = []
  /-- What the room held before the deletions does not matter. -/
  room : ∀ before before' deletions, roomMessages = deleteRoomMessages before deletions →
    SameButDeleted deletions before before' → ∀ context model fullRoomContext,
      approvedTurnInput approvalMessages roomMessages context model fullRoomContext =
        approvedTurnInput approvalMessages (deleteRoomMessages before' deletions) context model
          fullRoomContext
  /-- What the copies hold of deleted messages does not matter. -/
  copies : ∀ messages messages', approvalMessages = some messages →
    SameButDeletedFrom roomMessages messages messages' → ∀ context model fullRoomContext,
      approvedTurnInput (some messages) roomMessages context model fullRoomContext =
        approvedTurnInput (some messages') roomMessages context model fullRoomContext

variable {messages messages' roomMessages : List CodexChatMessage}
  {message message' : CodexChatMessage} {deletions : List RoomMessageDeletion}

namespace SameButContent

theorem id_eq (h : SameButContent message message') : message.id = message'.id := by
  rw [h]

theorem isLive_eq (h : SameButContent message message') : message.isLive = message'.isLive := by
  rw [h]
  rfl

theorem deleted_eq (h : SameButContent message message') (deletion : RoomMessageDeletion) :
    deletedChatMessage message deletion = deletedChatMessage message' deletion := by
  rw [h]
  rfl

end SameButContent

/-! ### The room -/

/-- One deletion leaves the difference to the deletions behind it. -/
theorem SameButDeleted.deleteRoomMessage {deletion : RoomMessageDeletion}
    (h : SameButDeleted (deletion :: deletions) messages messages') :
    SameButDeleted deletions (deleteRoomMessage messages deletion)
      (deleteRoomMessage messages' deletion) := by
  refine List.rel_map ?_ h
  rintro message message' (rfl | ⟨hsame, deleted, hmem, hid⟩)
  · exact Or.inl rfl
  · dsimp only
    rw [← hsame.id_eq]
    split
    · exact Or.inl (hsame.deleted_eq deletion)
    · next hother =>
      rcases List.mem_cons.mp hmem with rfl | hmem
      · exact absurd hid hother
      · exact Or.inr ⟨hsame, deleted, hmem, hid⟩

/-- **Rooms that differ only in what was deleted from them are equal.** -/
theorem deleteRoomMessages_eq (h : SameButDeleted deletions messages messages') :
    deleteRoomMessages messages deletions = deleteRoomMessages messages' deletions := by
  induction deletions generalizing messages messages' with
  | nil =>
    refine List.forall₂_eq_eq_eq ▸ List.Forall₂.imp ?_ h
    rintro message message' (heq | ⟨_, _, hmem, _⟩)
    · exact heq
    · exact absurd hmem List.not_mem_nil
  | cons deletion deletions ih => exact ih h.deleteRoomMessage

/-! ### The copies -/

theorem mem_refreshedMessages : message ∈ refreshedMessages messages roomMessages ↔
    message ∈ roomMessages ∧ (∃ id ∈ approvalMessageIds messages, message.id = some id) ∧
      message.isLive = true := by
  unfold refreshedMessages
  rw [List.mem_filter, Bool.and_eq_true, Option.any_eq_true]
  refine and_congr_right fun _ ↦ and_congr_left fun _ ↦ ?_
  constructor
  · rintro ⟨id, hid, hmem⟩
    exact ⟨id, of_decide_eq_true hmem, hid⟩
  · rintro ⟨id, hmem, hid⟩
    exact ⟨id, hid, decide_eq_true hmem⟩

theorem refreshApprovalMessages_of_left (h : refreshedMessages messages roomMessages ≠ []) :
    refreshApprovalMessagesFromRoom messages roomMessages =
      refreshedMessages messages roomMessages :=
  if_neg fun hempty ↦ h (List.isEmpty_iff.mp hempty)

theorem refreshApprovalMessages_of_nothing_left
    (h : refreshedMessages messages roomMessages = []) :
    refreshApprovalMessagesFromRoom messages roomMessages =
      messages.filter CodexChatMessage.isLive :=
  if_pos (List.isEmpty_iff.mpr h)

/-- Copies that differ in what was deleted name the same messages. -/
theorem SameButDeletedFrom.refreshedMessages_eq
    (h : SameButDeletedFrom roomMessages messages messages') :
    refreshedMessages messages roomMessages = refreshedMessages messages' roomMessages := by
  have hids : approvalMessageIds messages = approvalMessageIds messages' := by
    induction h with
    | nil => rfl
    | cons hhead _ ih =>
      have hid := hhead.elim (congrArg CodexChatMessage.id) fun hsame ↦ hsame.1.id_eq
      unfold approvalMessageIds at ih ⊢
      rw [List.filterMap_cons, List.filterMap_cons, hid, ih]
  unfold refreshedMessages
  rw [hids]

/-- Where every copy that is used has no id, none of them is a copy of a deleted message. -/
theorem SameButDeletedFrom.filter_isLive_eq
    (h : SameButDeletedFrom roomMessages messages messages')
    (hid : ∀ message ∈ messages, message.isLive = true → truthy message.id = none) :
    messages.filter CodexChatMessage.isLive = messages'.filter CodexChatMessage.isLive := by
  induction h with
  | nil => rfl
  | @cons message message' rest rest' hhead _ ih =>
    have hrest := ih fun m hm ↦ hid m (List.mem_cons_of_mem _ hm)
    rw [List.filter_cons, List.filter_cons, hrest]
    rcases hhead with rfl | ⟨hsame, id, hsome, _⟩
    · rfl
    · rw [← hsame.isLive_eq]
      split
      · next hlive =>
        rw [hid message List.mem_cons_self hlive] at hsome
        exact absurd hsome (Option.some_ne_none id).symm
      · rfl

theorem approvedTurnInput_congr {approvalMessages approvalMessages' : Option (List CodexChatMessage)}
    {roomMessages' : List CodexChatMessage}
    (h : turnMessages approvalMessages roomMessages = turnMessages approvalMessages' roomMessages')
    (context : CodexTurnContext) (model : CodeUnits) (fullRoomContext : Bool) :
    approvedTurnInput approvalMessages roomMessages context model fullRoomContext =
      approvedTurnInput approvalMessages' roomMessages' context model fullRoomContext := by
  unfold approvedTurnInput
  rw [h]

/-! ### Where nothing that was deleted is used -/

/-- Something that the approval names is left in the room, or no copy would be used that the room
does not hold itself. -/
def CopiesHeld (messages roomMessages : List CodexChatMessage) : Prop :=
  refreshedMessages messages roomMessages ≠ [] ∨
    ∀ message ∈ messages, message.isLive = false ∨ message ∈ roomMessages

/-- A copy that is used because nothing is left is in the room all the same. -/
theorem CopiesHeld.mem_of_nothing_left (h : CopiesHeld messages roomMessages)
    (hnone : refreshedMessages messages roomMessages = []) (hmessage : message ∈ messages)
    (hlive : message.isLive = true) : message ∈ roomMessages := by
  rcases h with hleft | hheld
  · exact absurd hnone hleft
  · rcases hheld message hmessage with hdeleted | hroom
    · exact absurd (hlive.symm.trans hdeleted) Bool.noConfusion
    · exact hroom

theorem CopiesHeld.current (h : CopiesHeld messages roomMessages)
    (hmessage : message ∈ refreshApprovalMessagesFromRoom messages roomMessages) :
    message ∈ roomMessages ∧ message.isLive = true := by
  rcases eq_or_ne (refreshedMessages messages roomMessages) [] with hnone | hleft
  · rw [refreshApprovalMessages_of_nothing_left hnone, List.mem_filter] at hmessage
    exact ⟨h.mem_of_nothing_left hnone hmessage.1 hmessage.2, hmessage.2⟩
  · rw [refreshApprovalMessages_of_left hleft] at hmessage
    have := mem_refreshedMessages.mp hmessage
    exact ⟨this.1, this.2.2⟩

theorem CopiesHeld.nothing_left (h : CopiesHeld messages roomMessages)
    (hdeleted : ∀ message ∈ roomMessages, (∃ copy ∈ messages, copy.id = message.id) →
      message.isLive = false) :
    refreshApprovalMessagesFromRoom messages roomMessages = [] := by
  have hnone : refreshedMessages messages roomMessages = [] := by
    refine List.eq_nil_iff_forall_not_mem.mpr fun message hmessage ↦ ?_
    obtain ⟨hroom, ⟨id, hid, heq⟩, hlive⟩ := mem_refreshedMessages.mp hmessage
    obtain ⟨copy, hcopy, hcopyId⟩ := List.mem_filterMap.mp hid
    have hsome : copy.id = some id := (Option.filter_eq_some_iff.mp hcopyId).1
    have := hdeleted message hroom ⟨copy, hcopy, hsome.trans heq.symm⟩
    exact absurd (hlive.symm.trans this) Bool.noConfusion
  rw [refreshApprovalMessages_of_nothing_left hnone]
  refine List.filter_eq_nil_iff.mpr fun message hmessage hlive ↦ ?_
  have hroom := h.mem_of_nothing_left hnone hmessage hlive
  have := hdeleted message hroom ⟨message, hmessage, rfl⟩
  exact absurd (hlive.symm.trans this) Bool.noConfusion

/-- A copy that is used because nothing is left has no id: under its id it would be left. -/
theorem CopiesHeld.truthy_id_eq_none (h : CopiesHeld messages roomMessages)
    (hnone : refreshedMessages messages roomMessages = []) (hmessage : message ∈ messages)
    (hlive : message.isLive = true) : truthy message.id = none := by
  by_contra hid
  obtain ⟨id, hid⟩ := Option.ne_none_iff_exists'.mp hid
  have hmem : message ∈ refreshedMessages messages roomMessages :=
    mem_refreshedMessages.mpr ⟨h.mem_of_nothing_left hnone hmessage hlive,
      ⟨id, List.mem_filterMap.mpr ⟨message, hmessage, hid⟩,
        (Option.filter_eq_some_iff.mp hid).1⟩, hlive⟩
  rw [hnone] at hmem
  exact absurd hmem List.not_mem_nil

theorem CopiesHeld.refreshApprovalMessages_eq (h : CopiesHeld messages roomMessages)
    (hsame : SameButDeletedFrom roomMessages messages messages') :
    refreshApprovalMessagesFromRoom messages roomMessages =
      refreshApprovalMessagesFromRoom messages' roomMessages := by
  rcases eq_or_ne (refreshedMessages messages roomMessages) [] with hnone | hleft
  · have hnone' := hsame.refreshedMessages_eq ▸ hnone
    rw [refreshApprovalMessages_of_nothing_left hnone,
      refreshApprovalMessages_of_nothing_left hnone']
    exact hsame.filter_isLive_eq fun message hmessage hlive ↦
      h.truthy_id_eq_none hnone hmessage hlive
  · have hleft' := hsame.refreshedMessages_eq ▸ hleft
    rw [refreshApprovalMessages_of_left hleft, refreshApprovalMessages_of_left hleft']
    exact hsame.refreshedMessages_eq

/-- **What was deleted is withheld exactly when** the copies that are used are held by the room. -/
theorem deletedWithheld_iff (approvalMessages : Option (List CodexChatMessage))
    (roomMessages : List CodexChatMessage) :
    DeletedWithheld approvalMessages roomMessages ↔
      ∀ messages, approvalMessages = some messages → CopiesHeld messages roomMessages := by
  constructor
  · rintro ⟨hcurrent, _, _, _⟩ messages rfl
    rcases eq_or_ne (refreshedMessages messages roomMessages) [] with hnone | hleft
    · refine Or.inr fun message hmessage ↦ ?_
      rcases Bool.eq_false_or_eq_true message.isLive with hlive | hdeleted
      · refine Or.inr (hcurrent messages rfl message ?_).1
        rw [refreshApprovalMessages_of_nothing_left hnone]
        exact List.mem_filter.mpr ⟨hmessage, hlive⟩
      · exact Or.inl hdeleted
    · exact Or.inl hleft
  intro hheld
  refine ⟨?_, ?_, ?_, ?_⟩
  · rintro messages rfl message hmessage
    exact (hheld messages rfl).current hmessage
  · rintro messages rfl hdeleted
    exact (hheld messages rfl).nothing_left hdeleted
  · rintro before before' deletions rfl hsame context model fullRoomContext
    rw [deleteRoomMessages_eq hsame]
  · rintro messages messages' rfl hsame context model fullRoomContext
    have heq : turnMessages (some messages) roomMessages =
        turnMessages (some messages') roomMessages :=
      (hheld messages rfl).refreshApprovalMessages_eq hsame
    exact approvedTurnInput_congr heq context model fullRoomContext

/-- Where a deletion refreshes an approval, it keeps what is left and nothing else. -/
theorem refreshPendingApprovalMessages_eq_some {approval refreshed : ApprovalSnapshot}
    (h : refreshPendingApprovalMessages approval roomMessages = some refreshed) :
    refreshed.messages = refreshApprovalMessagesFromRoom approval.messages roomMessages ∧
      ∀ message ∈ refreshed.messages, message ∈ roomMessages ∧ message.isLive = true := by
  unfold refreshPendingApprovalMessages at h
  dsimp only at h
  split at h
  · exact absurd h (Option.some_ne_none _).symm
  · next hleft =>
    obtain rfl := Option.some.inj h
    have hne : refreshedMessages approval.messages roomMessages ≠ [] := fun hnil ↦
      hleft (List.isEmpty_iff.mpr hnil)
    refine ⟨(refreshApprovalMessages_of_left hne).symm, fun message hmessage ↦ ?_⟩
    have := mem_refreshedMessages.mp hmessage
    exact ⟨this.1, this.2.2⟩

section Counterexample

private def secretMessage : CodexChatMessage where
  id := some (units "m1")
  author := units "ana"
  role := .human
  body := units "token 1234"
  time := units "10:02"

/-- The only message that an approval names is deleted, and its copy is sent. -/
theorem deleted_message_is_sent :
    ¬ DeletedWithheld (some [secretMessage])
      (deleteRoomMessages [secretMessage] [⟨units "m1", units "2026-01-01T00:00:00.000Z"⟩]) := by
  intro h
  have hsent := h.current [secretMessage] rfl secretMessage (by decide)
  exact absurd hsent.1 (by decide)

end Counterexample

end MultAIplayer.Desktop
