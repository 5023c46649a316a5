import MultAIplayer.Desktop.ChatReplicas
import MultAIplayer.Lib.InsertionMap
import MultAIplayer.Lib.Machine
import MultAIplayer.Lib.Text

/-!
# Messages that Codex has consumed

Whether a message that a turn has consumed can still be edited or deleted, over the runs of one
replica that receives events, saves its history, is restarted and loads the history again.

## What freezes a message

Nothing marks a message itself. It is refused a change as long as an event that the replica still
has lists it (`changeRoomMessage_of_listed`), and a replica has the last 80 events. So the event
that has consumed a message may leave the window while the message stays
(`consumed_message_is_edited`). Where each event that leaves lists nothing that the others do not,
and each message that comes back from the history comes back with an event that lists it, every
consumed message is `Covered`, and then no change of it is made.
-/

namespace MultAIplayer.Desktop

/-! ### Merging by key -/

/-- `mergeByKey` where the live item is chosen. -/
def mergeByKey {κ α : Type} [DecidableEq κ] (key : α → κ) (stored live : List α) : List α :=
  (InsertionMap.empty.setAll ((stored ++ live).map fun item ↦ (key item, item))).values

section Merging

variable {κ α : Type} [DecidableEq κ] {key : α → κ} {stored live : List α}

/-- The items by their keys. -/
@[grind =] def mergedItems (key : α → κ) (stored live : List α) : InsertionMap κ α :=
  InsertionMap.empty.setAll ((stored ++ live).map fun item ↦ (key item, item))

theorem lookupEntry_map_key (k : κ) (l : List α) :
    InsertionMap.lookupEntry k (l.map fun item ↦ (key item, item)) =
      l.find? fun item ↦ key item = k := by
  induction l with
  | nil => rfl
  | cons item l ih =>
    rw [List.map_cons, InsertionMap.lookupEntry, List.find?_cons, ih]
    by_cases h : key item = k <;> simp [h]

/-- Under a key stands the last item that has it. -/
theorem get_mergedItems (k : κ) :
    (mergedItems key stored live).get k = (live.reverse.find? fun item ↦ key item = k).or
      (stored.reverse.find? fun item ↦ key item = k) := by
  unfold mergedItems
  rw [InsertionMap.get_setAll_reverse, InsertionMap.get_empty, Option.or_none, ← List.map_reverse,
    lookupEntry_map_key, List.reverse_append, List.find?_append]

theorem key_of_get_mergedItems {k : κ} {item : α}
    (h : (mergedItems key stored live).get k = some item) :
    key item = k ∧ item ∈ stored ++ live := by
  rw [get_mergedItems, Option.or_eq_some_iff] at h
  rcases h with h | ⟨-, h⟩
  · have hmem := List.mem_of_find?_eq_some h
    exact ⟨by simpa using List.find?_some h, List.mem_append_right _ (List.mem_reverse.mp hmem)⟩
  · have hmem := List.mem_of_find?_eq_some h
    exact ⟨by simpa using List.find?_some h, List.mem_append_left _ (List.mem_reverse.mp hmem)⟩

/-- Every item has one of its key among the merged ones. -/
theorem exists_mem_mergeByKey {item : α} (h : item ∈ stored ++ live) :
    ∃ kept ∈ mergeByKey key stored live, key kept = key item ∧ kept ∈ stored ++ live := by
  have hsome : ((mergedItems key stored live).get (key item)).isSome = true := by
    rw [get_mergedItems, Option.isSome_or, Bool.or_eq_true, List.find?_isSome, List.find?_isSome]
    rcases List.mem_append.mp h with h | h
    · exact .inr ⟨item, List.mem_reverse.mpr h, decide_eq_true rfl⟩
    · exact .inl ⟨item, List.mem_reverse.mpr h, decide_eq_true rfl⟩
  obtain ⟨kept, hkept⟩ := Option.isSome_iff_exists.mp hsome
  exact ⟨kept, InsertionMap.mem_values_iff.mpr ⟨_, hkept⟩, key_of_get_mergedItems hkept⟩

theorem map_key_mergeByKey :
    (mergeByKey key stored live).map key = (mergedItems key stored live).keys := by
  show ((mergedItems key stored live).entries.map Prod.snd).map key = _
  rw [List.map_map]
  refine List.map_congr_left fun entry hentry ↦ ?_
  exact (key_of_get_mergedItems (InsertionMap.mem_entries_iff.mp hentry)).1

theorem nodup_mergeByKey : ((mergeByKey key stored live).map key).Nodup := by
  rw [map_key_mergeByKey]
  exact (mergedItems key stored live).nodup_keys

theorem find?_mergeByKey (k : κ) :
    (mergeByKey key stored live).find? (key · = k) = (mergedItems key stored live).get k := by
  show ((mergedItems key stored live).entries.map Prod.snd).find? _ = _
  rw [← lookupEntry_map_key, List.map_map]
  show InsertionMap.lookupEntry k _ = InsertionMap.lookupEntry k _
  congr 1
  conv_rhs => rw [← List.map_id (mergedItems key stored live).entries]
  refine List.map_congr_left fun entry hentry ↦ ?_
  have hkey := (key_of_get_mergedItems (InsertionMap.mem_entries_iff.mp hentry)).1
  exact Prod.ext hkey rfl

end Merging

/-! ### The saved history -/

/-- `maxMessageAttachments`. -/
def maxMessageAttachments : ℕ := 5

def sanitizeAttachmentName (value : String) (index : ℕ) : String :=
  if Text.trim value = "" then "Attachment " ++ toString (index + 1) else Text.trim value

/-- `toLowerCase` of one character, for a comparison with an ASCII text: the Kelvin sign is the
only other character whose lower case is an ASCII letter. -/
def toLowerCase (c : Char) : Char := if c.toNat = 0x212a then 'k' else c.toLower

def sanitizeAttachmentType (value name : String) : String :=
  if Text.trim value ≠ "" then Text.trim value
  else
    let extension := (((name.toList.reverse.takeWhile (· ≠ '.')).reverse).map toLowerCase)
    if extension ∈ ["png", "jpg", "jpeg", "gif", "webp", "sketch"].map String.toList then "image"
    else if extension ∈
      ["ts", "tsx", "js", "jsx", "rs", "py", "go", "md", "json"].map String.toList then "code"
    else "file"

def normalizeChatAttachment (value : ChatAttachment) (index : ℕ) : ChatAttachment :=
  let name := sanitizeAttachmentName value.name index
  { value with
    id := if Text.trim value.id = "" then "attachment-" ++ toString (index + 1) else value.id
    name := name
    type := sanitizeAttachmentType value.type name }

def normalizeChatAttachments (values : List ChatAttachment) : List ChatAttachment :=
  (values.take maxMessageAttachments).mapIdx fun index value ↦ normalizeChatAttachment value index

/-- `normalizeChatMessage` of a message: its attachments are sanitized. -/
def normalizeChatMessage (message : ChatMessage) : ChatMessage :=
  { message with attachments := normalizeChatAttachments message.attachments }

/-- What the history of a room says of its chat. -/
structure LocalRoomHistoryPayload where
  messages : RoomMessages
  codexEvents : List CodexRoomEvent
  deriving DecidableEq

def maxLocalHistoryItemsPerContainer : ℕ := 10000

@[irreducible] def retainNewest {α : Type} (items : List α) : List α :=
  items.drop (items.length - maxLocalHistoryItemsPerContainer)

theorem retainNewest_sublist {α : Type} (items : List α) : (retainNewest items).Sublist items := by
  unfold retainNewest
  exact List.drop_sublist _ _

/-- A value that is no date stays. -/
@[grind =] def isWithinRetention (value : String) (cutoffMs : Instant) : Bool :=
  (IsoDate.parse value).all fun timestamp ↦ cutoffMs ≤ timestamp

/-- The messages in the order that they have, without some of them. -/
@[grind =] def RoomMessages.restrict (ms : RoomMessages) (list : List ChatMessage)
    (h : list.Sublist ms.list) : RoomMessages :=
  ⟨list, ms.nodup.sublist (h.map _)⟩

def retainedMessages (ms : RoomMessages) (cutoffMs : Instant) : List ChatMessage :=
  retainNewest (ms.list.filter fun message ↦
    isWithinRetention (message.createdAt.getD message.time) cutoffMs)

theorem retainedMessages_sublist (ms : RoomMessages) (cutoffMs : Instant) :
    (retainedMessages ms cutoffMs).Sublist ms.list :=
  (retainNewest_sublist _).trans List.filter_sublist

/-- The time before which nothing is kept. -/
def historyCutoff (retentionDays : ℕ) (now : Instant) : Instant :=
  now - (retentionDays * 24 * 60 * 60 * 1000 : ℕ)

def pruneLocalRoomHistory (payload : LocalRoomHistoryPayload) (retentionDays : ℕ)
    (now : Instant) : LocalRoomHistoryPayload where
  messages := payload.messages.restrict
    (retainedMessages payload.messages (historyCutoff retentionDays now))
    (retainedMessages_sublist payload.messages (historyCutoff retentionDays now))
  codexEvents := retainNewest (payload.codexEvents.filter fun event ↦
    isWithinRetention event.createdAt (historyCutoff retentionDays now))

/-- Every message is changed, and keeps its id. -/
def RoomMessages.mapAll (ms : RoomMessages) (f : ChatMessage → ChatMessage)
    (hf : ∀ m, (f m).id = m.id) : RoomMessages where
  list := ms.list.map f
  nodup := by
    have hids : ms.list.map (ChatMessage.id ∘ f) = ms.list.map ChatMessage.id :=
      List.map_congr_left fun m _ ↦ hf m
    rw [List.map_map, hids]
    exact ms.nodup

/-- `normalizeLocalRoomHistory` of what a replica has saved. -/
def normalizeLocalRoomHistory (payload : LocalRoomHistoryPayload) : LocalRoomHistoryPayload :=
  { payload with messages := payload.messages.mapAll normalizeChatMessage fun _ ↦ rfl }

def normalizeRetainedLocalRoomHistory (payload : LocalRoomHistoryPayload) (retentionDays : ℕ)
    (now : Instant) : LocalRoomHistoryPayload :=
  pruneLocalRoomHistory (normalizeLocalRoomHistory payload) retentionDays now

/-- `localHistoryPayloadForRoom`. -/
def localHistoryPayloadForRoom (state : ChatRoomState) (retentionDays : ℕ) (now : Instant) :
    LocalRoomHistoryPayload :=
  pruneLocalRoomHistory { messages := state.messages, codexEvents := state.events } retentionDays
    now

def CodexEventStatus.text : CodexEventStatus → String
  | .started => "started"
  | .event => "event"
  | .completed => "completed"
  | .failed => "failed"

def codexEventKey (event : CodexRoomEvent) : String :=
  event.turnId ++ ":" ++ event.createdAt ++ ":" ++ event.status.text ++ ":" ++ event.message

theorem messages_pruned (payload : LocalRoomHistoryPayload) (retentionDays : ℕ) (now : Instant) :
    (pruneLocalRoomHistory payload retentionDays now).messages.list.Sublist
      payload.messages.list := by
  exact retainedMessages_sublist payload.messages (historyCutoff retentionDays now)

/-- `hydratedRoomHistoryState`. -/
def hydratedRoomHistoryState (state : ChatRoomState) (payload : LocalRoomHistoryPayload) :
    ChatRoomState where
  messages := ⟨mergeByKey ChatMessage.id payload.messages.list state.messages.list,
    nodup_mergeByKey⟩
  events := mergeByKey codexEventKey payload.codexEvents state.events

/-! ### A replica and its history -/

/-- A replica of a room's chat and the history that it has on disk. -/
structure ChatReplica where
  state : ChatRoomState := {}
  /-- The snapshot that waits to be written. -/
  captured : Option LocalRoomHistoryPayload := none
  saved : Option LocalRoomHistoryPayload := none
  /-- The messages that the started events so far have listed. No code reads it. -/
  consumed : List String := []
  deriving DecidableEq

inductive ChatReplicaAction
  | receive (e : ChatEvent)
  | capture (retentionDays : ℕ) (now : Instant)
  | write
  | restart
  | hydrate (retentionDays : ℕ) (now : Instant)

/-- The messages that an event consumes when its turn starts. -/
def ChatEvent.consumes : ChatEvent → List String
  | .codex event => if event.status = .started then event.consumedMessageIds.getD [] else []
  | _ => []

namespace ChatReplica

variable (r : ChatReplica)

@[grind =] def step : ChatReplicaAction → ChatReplica
  | .receive e => { r with state := r.state.receive e, consumed := r.consumed ++ e.consumes }
  | .capture retentionDays now =>
    { r with captured := some (localHistoryPayloadForRoom r.state retentionDays now) }
  | .write => { r with saved := r.captured.or r.saved, captured := none }
  | .restart => { r with state := {}, captured := none }
  | .hydrate retentionDays now =>
    match r.saved with
    | none => r
    | some payload =>
      { r with
        state := hydratedRoomHistoryState r.state
          (normalizeRetainedLocalRoomHistory payload retentionDays now) }

/-- Nobody outside sees anything of a step. -/
def replicaStep (action : ChatReplicaAction) : ChatReplica × List Empty := (r.step action, [])

end ChatReplica

/-! ### Messages that are covered -/

namespace RoomMessages

theorem find_eq_some_iff {ms : RoomMessages} {id : String} {m : ChatMessage} :
    ms.find id = some m ↔ m ∈ ms.list ∧ m.id = id := by
  constructor
  · intro h
    exact ⟨List.mem_of_find?_eq_some h, by simpa using List.find?_some h⟩
  · rintro ⟨hm, rfl⟩
    have hsome : (ms.find m.id).isSome = true :=
      List.find?_isSome.mpr ⟨m, hm, decide_eq_true rfl⟩
    obtain ⟨found, hfound⟩ := Option.isSome_iff_exists.mp hsome
    have hid : found.id = m.id := by simpa using List.find?_some hfound
    rw [hfound, List.inj_on_of_nodup_map ms.nodup (List.mem_of_find?_eq_some hfound) hm hid]

theorem find?_reverse (ms : RoomMessages) (id : String) :
    (ms.list.reverse.find? fun m ↦ m.id = id) = ms.find id := by
  have hnodup : (ms.list.reverse.map ChatMessage.id).Nodup := by
    rw [List.map_reverse]
    exact List.nodup_reverse.mpr ms.nodup
  ext m
  show find ⟨ms.list.reverse, hnodup⟩ id = some m ↔ _
  rw [find_eq_some_iff, find_eq_some_iff, List.mem_reverse]

theorem isSome_find_iff {ms : RoomMessages} {id : String} :
    (ms.find id).isSome = true ↔ ∃ m ∈ ms.list, m.id = id := by
  rw [Option.isSome_iff_exists]
  exact exists_congr fun m ↦ find_eq_some_iff

end RoomMessages

theorem find_hydrated (state : ChatRoomState) (payload : LocalRoomHistoryPayload) (id : String) :
    (hydratedRoomHistoryState state payload).messages.find id =
      (state.messages.find id).or (payload.messages.find id) := by
  show (mergeByKey ChatMessage.id payload.messages.list state.messages.list).find? _ = _
  rw [find?_mergeByKey, get_mergedItems, RoomMessages.find?_reverse, RoomMessages.find?_reverse]

theorem mem_codexConsumedMessageIds {events : List CodexRoomEvent} {id : String} :
    id ∈ codexConsumedMessageIds events ↔
      ∃ event ∈ events, id ∈ event.consumedMessageIds.getD [] :=
  List.mem_flatMap

theorem codexConsumedMessageIds_append (events events' : List CodexRoomEvent) :
    codexConsumedMessageIds (events ++ events') =
      codexConsumedMessageIds events ++ codexConsumedMessageIds events' :=
  List.flatMap_append

/-- **A message that an event lists is not changed.** -/
theorem changeRoomMessage_of_listed {state : ChatRoomState} {c : MessageChange}
    (h : c.messageId ∈ codexConsumedMessageIds state.events) :
    state.changeRoomMessage c = state := by
  unfold ChatRoomState.changeRoomMessage
  refine if_neg fun hany ↦ ?_
  obtain ⟨target, hfind, hmay⟩ := (Option.any_eq_true _ _).mp hany
  have hid := (RoomMessages.find_eq_some_iff.mp hfind).2
  unfold mayChange messageIsBeforeCodexWatermark at hmay
  rw [hid, if_pos h, Bool.and_false] at hmay
  cases hmay

namespace ChatReplica

/-- Each consumed message that is there is listed by an event that is there. -/
def Covered (r : ChatReplica) : Prop :=
  ∀ id ∈ r.consumed, (r.state.messages.find id).isSome →
    id ∈ codexConsumedMessageIds r.state.events

/-- An event leaves no consumed message without an event that lists it: those that fall out of the
window list nothing that the others do not, and if it is taken for one that the replica has, it
lists nothing new. -/
def KeepsListed (r : ChatReplica) (event : CodexRoomEvent) : Prop :=
  if r.state.events.any (sameEvent · event) then
    ∀ id ∈ (ChatEvent.codex event).consumes, (r.state.messages.find id).isSome →
      id ∈ codexConsumedMessageIds r.state.events
  else
    ∀ id ∈ codexConsumedMessageIds (r.state.events.take (r.state.events.length + 1 - 80)),
      id ∈ r.consumed → (r.state.messages.find id).isSome → id ∈ codexConsumedMessageIds
        (r.state.events.drop (r.state.events.length + 1 - 80) ++ [event])

/-- What a load brings back leaves no consumed message without an event that lists it, and no event
takes the place of one that lists other messages. -/
def LoadsListed (r : ChatReplica) (loaded : LocalRoomHistoryPayload) : Prop :=
  (∀ message ∈ loaded.messages.list, message.id ∈ r.consumed →
    message.id ∈ codexConsumedMessageIds (loaded.codexEvents ++ r.state.events)) ∧
  ∀ event ∈ loaded.codexEvents ++ r.state.events,
    ∀ other ∈ loaded.codexEvents ++ r.state.events,
      codexEventKey event = codexEventKey other →
      event.consumedMessageIds = other.consumedMessageIds

/-- A step leaves no consumed message without an event that lists it. -/
def KeepsCovered (r : ChatReplica) : ChatReplicaAction → Prop
  -- a message that comes once more
  | .receive (.message message) =>
    message.id ∈ r.consumed → message.id ∈ codexConsumedMessageIds r.state.events
  | .receive (.change _) => True
  | .receive (.codex event) => r.KeepsListed event
  | .capture _ _ | .write | .restart => True
  | .hydrate retentionDays now =>
    ∀ payload ∈ r.saved,
      r.LoadsListed (normalizeRetainedLocalRoomHistory payload retentionDays now)

variable {r : ChatReplica}

/-- The listed messages stay listed when the events that share a key list the same. -/
theorem listed_hydrated {payload : LocalRoomHistoryPayload} {id : String}
    (hkeys : ∀ event ∈ payload.codexEvents ++ r.state.events,
      ∀ other ∈ payload.codexEvents ++ r.state.events,
        codexEventKey event = codexEventKey other →
        event.consumedMessageIds = other.consumedMessageIds)
    (h : id ∈ codexConsumedMessageIds (payload.codexEvents ++ r.state.events)) :
    id ∈ codexConsumedMessageIds (hydratedRoomHistoryState r.state payload).events := by
  obtain ⟨event, hevent, hid⟩ := mem_codexConsumedMessageIds.mp h
  have hmerged : ∃ kept ∈ (hydratedRoomHistoryState r.state payload).events,
      codexEventKey kept = codexEventKey event ∧ kept ∈ _ := exists_mem_mergeByKey hevent
  obtain ⟨kept, hkept, hkey, hmem⟩ := hmerged
  refine mem_codexConsumedMessageIds.mpr ⟨kept, hkept, ?_⟩
  rw [hkeys kept hmem event hevent hkey]
  exact hid

theorem covered_codex (event : CodexRoomEvent) (h : r.Covered)
    (hsafe : r.KeepsCovered (.receive (.codex event))) :
    (r.step (.receive (.codex event))).Covered := by
  intro id hid hfound
  show id ∈ codexConsumedMessageIds (appendRoomEvent r.state.events event)
  have hkeeps : r.KeepsListed event := hsafe
  unfold KeepsListed at hkeeps
  unfold appendRoomEvent
  split_ifs at hkeeps ⊢ with hsame
  · rcases List.mem_append.mp hid with hold | hnew
    · exact h id hold hfound
    · exact hkeeps id hnew hfound
  · have hdrop : (r.state.events ++ [event]).drop (r.state.events.length + 1 - 80) =
        r.state.events.drop (r.state.events.length + 1 - 80) ++ [event] :=
      List.drop_append_of_le_length (by omega)
    rw [hdrop]
    rcases List.mem_append.mp hid with hold | hnew
    · have hlisted := h id hold hfound
      rw [← List.take_append_drop (r.state.events.length + 1 - 80) r.state.events,
        codexConsumedMessageIds_append] at hlisted
      rcases List.mem_append.mp hlisted with hleaving | hstaying
      · exact hkeeps id hleaving hold hfound
      · rw [codexConsumedMessageIds_append]
        exact List.mem_append_left _ hstaying
    · rw [codexConsumedMessageIds_append]
      refine List.mem_append_right _ (mem_codexConsumedMessageIds.mpr ⟨event, by simp, ?_⟩)
      have hconsumes : id ∈ if event.status = .started then event.consumedMessageIds.getD [] else [] :=
        hnew
      split_ifs at hconsumes
      · exact hconsumes
      · cases hconsumes

theorem step_hydrate_of_none {retentionDays : ℕ} {now : Instant} (h : r.saved = none) :
    r.step (.hydrate retentionDays now) = r := by
  unfold step
  rw [h]

theorem step_hydrate_of_some {retentionDays : ℕ} {now : Instant}
    {payload : LocalRoomHistoryPayload} (h : r.saved = some payload) :
    r.step (.hydrate retentionDays now) = { r with
      state := hydratedRoomHistoryState r.state
        (normalizeRetainedLocalRoomHistory payload retentionDays now) } := by
  unfold step
  rw [h]

theorem covered_hydrate (retentionDays : ℕ) (now : Instant) (h : r.Covered)
    (hsafe : r.KeepsCovered (.hydrate retentionDays now)) :
    (r.step (.hydrate retentionDays now)).Covered := by
  rcases hsaved : r.saved with _ | payload
  · rw [step_hydrate_of_none hsaved]
    exact h
  · obtain ⟨hmessages, hkeys⟩ := hsafe payload hsaved
    rw [step_hydrate_of_some hsaved]
    intro id hid hfound
    refine listed_hydrated hkeys ?_
    have hfound' := hfound
    rw [find_hydrated, Option.isSome_or, Bool.or_eq_true] at hfound'
    rcases hfound' with hlive | hstored
    · rw [codexConsumedMessageIds_append]
      exact List.mem_append_right _ (h id hid hlive)
    · obtain ⟨message, hmem, rfl⟩ := RoomMessages.isSome_find_iff.mp hstored
      exact hmessages message hmem hid

/-- **The step lemma**: consumed messages stay covered. -/
theorem covered_step (action : ChatReplicaAction) (h : r.Covered) (hsafe : r.KeepsCovered action) :
    (r.step action).Covered := by
  rcases action with (message | c | event) | ⟨retentionDays, now⟩ | _ | _ | ⟨retentionDays, now⟩
  · intro id hid hfound
    have hold : id ∈ r.consumed := by simpa [step, ChatEvent.consumes] using hid
    have hfind : (r.step (.receive (.message message))).state.messages.find id =
        (r.state.messages.find id).or (if message.id = id then some message else none) :=
      RoomMessages.find_append _ _ _
    rw [hfind, Option.isSome_or, Bool.or_eq_true] at hfound
    rcases hfound with hfound | hfound
    · exact h id hold hfound
    · split at hfound
      · next heq =>
        subst heq
        exact hsafe hold
      · cases hfound
  · intro id hid hfound
    have hold : id ∈ r.consumed := by simpa [step, ChatEvent.consumes] using hid
    have hevents : (r.state.changeRoomMessage c).events = r.state.events := by
      unfold ChatRoomState.changeRoomMessage
      split <;> rfl
    have hfind : (r.state.messages.find id).isSome = true := by
      have hfound' : ((r.state.changeRoomMessage c).messages.find id).isSome = true := hfound
      unfold ChatRoomState.changeRoomMessage at hfound'
      split at hfound'
      · rw [RoomMessages.find_modify] at hfound'
        split at hfound'
        · rwa [Option.isSome_map] at hfound'
        · exact hfound'
      · exact hfound'
    show id ∈ codexConsumedMessageIds (r.state.changeRoomMessage c).events
    rw [hevents]
    exact h id hold hfind
  · exact covered_codex event h hsafe
  · exact h
  · exact h
  · exact fun id _ hfound ↦ absurd hfound nofun
  · exact covered_hydrate retentionDays now h hsafe

/-- A covered message stays as it is, unless everything in memory is lost. -/
theorem find_step {action : ChatReplicaAction} {id : String} {message : ChatMessage}
    (h : r.Covered) (hid : id ∈ r.consumed) (hfind : r.state.messages.find id = some message)
    (hrestart : action ≠ .restart) : (r.step action).state.messages.find id = some message := by
  have hlisted : id ∈ codexConsumedMessageIds r.state.events := h id hid (by rw [hfind]; rfl)
  rcases action with (added | c | event) | ⟨retentionDays, now⟩ | _ | _ | ⟨retentionDays, now⟩
  · show (r.state.messages.append added).find id = some message
    rw [RoomMessages.find_append, hfind]
    rfl
  · show (r.state.changeRoomMessage c).messages.find id = some message
    by_cases htarget : c.messageId = id
    · rw [changeRoomMessage_of_listed (htarget ▸ hlisted)]
      exact hfind
    · unfold ChatRoomState.changeRoomMessage
      split
      · rw [RoomMessages.find_modify, if_neg (Ne.symm htarget)]
        exact hfind
      · exact hfind
  · exact hfind
  · exact hfind
  · exact hfind
  · exact absurd rfl hrestart
  · rcases hsaved : r.saved with _ | payload
    · rw [step_hydrate_of_none hsaved]
      exact hfind
    · rw [step_hydrate_of_some hsaved, find_hydrated, hfind]
      rfl

theorem consumed_step {action : ChatReplicaAction} {id : String} (hid : id ∈ r.consumed) :
    id ∈ (r.step action).consumed := by
  rcases action with e | ⟨retentionDays, now⟩ | _ | _ | ⟨retentionDays, now⟩
  · exact List.mem_append_left _ hid
  · exact hid
  · exact hid
  · exact hid
  · rcases hsaved : r.saved with _ | payload
    · rw [step_hydrate_of_none hsaved]
      exact hid
    · rw [step_hydrate_of_some hsaved]
      exact hid

/-! ### Runs -/

theorem covered_run {actions : List ChatReplicaAction} (h : r.Covered)
    (hsafe : Machine.Along replicaStep KeepsCovered r actions) :
    (Machine.run replicaStep r actions).1.Covered := by
  have hstep : ∀ (r : ChatReplica) action, r.Covered → r.KeepsCovered action →
      (replicaStep r action).1.Covered := fun r action ↦ covered_step action
  exact Machine.run_state_invariant hstep h hsafe

theorem consumed_run {actions : List ChatReplicaAction} {id : String} (hid : id ∈ r.consumed) :
    id ∈ (Machine.run replicaStep r actions).1.consumed := by
  have hstep : ∀ (r : ChatReplica) action, id ∈ r.consumed → True →
      id ∈ (replicaStep r action).1.consumed := fun r action hid _ ↦ consumed_step hid
  exact Machine.run_state_invariant hstep hid (Machine.along_true _ _)

theorem find_run {actions : List ChatReplicaAction} {id : String} {message : ChatMessage}
    (h : r.Covered) (hid : id ∈ r.consumed) (hfind : r.state.messages.find id = some message)
    (hrestart : .restart ∉ actions)
    (hsafe : Machine.Along replicaStep KeepsCovered r actions) :
    (Machine.run replicaStep r actions).1.state.messages.find id = some message := by
  induction actions generalizing r with
  | nil => exact hfind
  | cons action actions ih =>
    have hne : action ≠ .restart := fun heq ↦ hrestart (heq ▸ List.mem_cons_self)
    exact ih (covered_step action h hsafe.1) (consumed_step hid) (find_step h hid hfind hne)
      (fun hmem ↦ hrestart (List.mem_cons_of_mem _ hmem)) hsafe.2

/-- A message that comes back after a restart is the sanitized one of the snapshot. -/
theorem find_reloaded {retentionDays retentionDays' : ℕ} {now now' : Instant} {id : String}
    {message : ChatMessage}
    (h : (Machine.run replicaStep r [.capture retentionDays now, .write, .restart,
      .hydrate retentionDays' now']).1.state.messages.find id = some message) :
    ∃ captured, r.state.messages.find id = some captured ∧
      message = normalizeChatMessage captured := by
  simp only [Machine.run_cons, Machine.run_nil, replicaStep] at h
  have hsaved : (((r.step (.capture retentionDays now)).step .write).step .restart).saved =
      some (localHistoryPayloadForRoom r.state retentionDays now) := rfl
  have hempty : (((r.step (.capture retentionDays now)).step .write).step
      .restart).state.messages.find id = none := rfl
  rw [step_hydrate_of_some hsaved, find_hydrated, hempty, Option.none_or] at h
  obtain ⟨hmem, hid⟩ := RoomMessages.find_eq_some_iff.mp h
  have hnormalized := (messages_pruned _ _ _).mem hmem
  obtain ⟨captured, hcaptured, rfl⟩ := List.mem_map.mp hnormalized
  have hlive : captured ∈ r.state.messages.list := (messages_pruned _ _ _).mem hcaptured
  exact ⟨captured, RoomMessages.find_eq_some_iff.mpr ⟨hlive, hid⟩, rfl⟩

end ChatReplica

open ChatReplica

/-- **Consumed messages are frozen**, as long as no step leaves one without an event that lists it:
no change of them is made, they stay as they are until a restart, and what a restart brings back of
them is what was saved. -/
theorem consumed_messages_frozen {before after : List ChatReplicaAction} {event : CodexRoomEvent}
    {id : String} (hstarted : event.status = .started)
    (hid : id ∈ event.consumedMessageIds.getD [])
    (hsafe : Machine.Along replicaStep KeepsCovered {}
      (before ++ .receive (.codex event) :: after)) :
    ∀ r, r = (Machine.run replicaStep {} (before ++ .receive (.codex event) :: after)).1 →
    (∀ c : MessageChange, c.messageId = id → r.state.changeRoomMessage c = r.state) ∧
    (∀ (later : List ChatReplicaAction) (message : ChatMessage), .restart ∉ later →
      Machine.Along replicaStep KeepsCovered r later →
      r.state.messages.find id = some message →
      (Machine.run replicaStep r later).1.state.messages.find id = some message) ∧
    ∀ (retentionDays retentionDays' : ℕ) (now now' : Instant) (message : ChatMessage),
      (Machine.run replicaStep r [.capture retentionDays now, .write, .restart,
        .hydrate retentionDays' now']).1.state.messages.find id = some message →
      ∃ captured, r.state.messages.find id = some captured ∧
        message = normalizeChatMessage captured := by
  rintro r rfl
  have hcovered := covered_run (r := {}) (fun _ hmem ↦ absurd hmem nofun) hsafe
  have hconsumed : id ∈ (Machine.run replicaStep {}
      (before ++ .receive (.codex event) :: after)).1.consumed := by
    rw [Machine.run_append]
    refine consumed_run (r := step _ (.receive (.codex event))) (List.mem_append_right _ ?_)
    show id ∈ if event.status = .started then event.consumedMessageIds.getD [] else []
    rw [if_pos hstarted]
    exact hid
  refine ⟨fun c hc ↦ ?_, fun later message hrestart hlater hfind ↦
    find_run hcovered hconsumed hfind hrestart hlater, fun _ _ _ _ message ↦ find_reloaded⟩
  by_cases hfound : ((Machine.run replicaStep {} (before ++ .receive (.codex event) ::
      after)).1.state.messages.find id).isSome
  · exact changeRoomMessage_of_listed (hc ▸ hcovered id hconsumed hfound)
  · refine if_neg fun hany ↦ hfound ?_
    rw [hc] at hany
    obtain ⟨target, hfind, -⟩ := (Option.any_eq_true _ _).mp hany
    rw [hfind]
    rfl

/-! ### A message that outlives its event -/

/-- A question to Codex. -/
def question : ChatMessage where
  id := "message-1"
  author := "Ada"
  authorUserId := some "user-1"
  role := .human
  body := "Delete the build folder"
  time := "12:00"
  createdAt := some "2026-01-01T12:00:00.000Z"

/-- The turn that answers it starts. -/
def answerStarted : CodexRoomEvent where
  turnId := "turn-1"
  status := .started
  message := "Started"
  model := "model"
  consumedMessageIds := some ["message-1"]
  host := "Bob"
  hostUserId := "user-2"
  createdAt := "2026-01-01T12:00:01.000Z"

/-- One of the events of the turn that follow. -/
def answerProgress (number : ℕ) : CodexRoomEvent where
  turnId := "turn-1"
  status := .event
  message := String.ofList (List.replicate number '.')
  model := "model"
  host := "Bob"
  hostUserId := "user-2"
  createdAt := "2026-01-01T12:00:02.000Z"

/-- The author changes the question afterwards. -/
def questionEdit : ChatEditPlaintextPayload where
  id := "edit-1"
  messageId := "message-1"
  body := "Delete the home folder"
  editedBy := "Ada"
  editedByUserId := "user-1"
  editedAt := "2026-01-01T12:10:00.000Z"

theorem consumed_messages_frozen_one :
    Machine.Along replicaStep KeepsCovered {}
      ([.receive (.message question)] ++ .receive (.codex answerStarted) :: []) ∧
    ∀ r, r = (Machine.run replicaStep {}
        ([.receive (.message question)] ++ .receive (.codex answerStarted) :: [])).1 →
      r.state.editRoomMessage questionEdit = r.state := by
  have hsafe : Machine.Along replicaStep KeepsCovered {}
      ([.receive (.message question)] ++ .receive (.codex answerStarted) :: []) := by
    refine ⟨nofun, ?_, trivial⟩
    exact fun _ hleaving ↦ absurd hleaving nofun
  exact ⟨hsafe, fun r hr ↦
    (consumed_messages_frozen rfl List.mem_cons_self hsafe r hr).1 questionEdit.toChange rfl⟩

/-- Eighty events later the message that the turn has consumed is edited. -/
theorem consumed_message_is_edited :
    ¬∀ (actions : List ChatReplicaAction) (c : MessageChange),
      c.messageId ∈ (Machine.run replicaStep {} actions).1.consumed →
      (Machine.run replicaStep {} actions).1.state.changeRoomMessage c =
        (Machine.run replicaStep {} actions).1.state := by
  intro hfrozen
  have hkept := hfrozen ([.receive (.message question), .receive (.codex answerStarted)] ++
    (List.range 80).map fun number ↦ .receive (.codex (answerProgress number)))
    questionEdit.toChange
  revert hkept
  decide +kernel

end MultAIplayer.Desktop
