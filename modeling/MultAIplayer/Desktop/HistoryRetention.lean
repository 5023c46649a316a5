import MultAIplayer.Desktop.ConsumedMessages
import MultAIplayer.Desktop.RoomArchive
import MultAIplayer.Desktop.ThreadGraphNormal
import MultAIplayer.Lib.IsoDate
import MultAIplayer.Lib.Json
import MultAIplayer.Lib.Retention
import Mathlib.Algebra.Ring.Int.Defs
import Mathlib.Algebra.Ring.Nat

/-!
# The retention of local history

`pruneLocalRoomHistory` takes the records that are older than the retention out of every container
of a history and leaves the last ones of each. A time that `Date.parse` does not read counts as
recent. The start of a terminal is such a time: `unix_timestamp_millis` writes the milliseconds in
decimal, so that no terminal ever leaves the history (`prunedTerminals_eq`). The other containers
hold the texts of `toISOString`.

What is kept are the newest records where the lists are in the order of time, since the limit takes
the last ones, whatever their times (`honoursRetention_iff`).

A container is its records, its limit and the time that its records have; the containers whose
times are in ISO format are listed in `containers`.
-/

namespace MultAIplayer.Desktop.Retention

/-! ### The payload -/

structure InviteJoinRequest extends Archive.InviteJoinRequest where
  requesterSignatureKeyFingerprint : Option String := none
  requestedAt : String
  note : Option String := none

structure HostHandoffRecord extends Desktop.HostHandoffRecord where
  createdAt : String

structure LocalRoomReadState where
  lastReadMessageId : Option String := none
  unread : ℕ

structure LocalRoomHistoryPayload where
  messages : List (Archive.ChatMessage Archive.ChatAttachment) := []
  chatEdits : List ChatEditPlaintextPayload := []
  chatDeletes : List ChatDeletePlaintextPayload := []
  readState : LocalRoomReadState
  terminalRequests : List Archive.TerminalCommandRequest := []
  fileSaveRequests : Option (List Archive.WorkspaceFileSaveRequest) := none
  browserRequests : List Archive.BrowserAccessRequest := []
  inviteRequests : List InviteJoinRequest := []
  codexEvents : List Archive.CodexRoomEvent := []
  codexActivities : List Archive.CodexActivity := []
  gitWorkflowEvents : List Archive.GitWorkflowEvent := []
  githubActionsEvents : List Archive.GitHubActionsEvent := []
  localPreviews : List Archive.LocalPreviewRecord := []
  terminalSnapshots : List Archive.TerminalSnapshot := []
  hostHandoffs : List HostHandoffRecord := []
  queuedCodexTurns : List QueuedCodexTurn := []
  roomGoal : Option Archive.RoomGoal := none
  codexThreadGraph : Option CodexThreadGraph := none

/-! ### Pruning -/

def maxLocalHistoryItemsPerContainer : ℕ := 10000

def maxCodexActivitiesPerRoom : ℕ := 160

def retainNewest {α : Type} (items : List α) : List α :=
  if maxLocalHistoryItemsPerContainer < items.length then
    items.rtake maxLocalHistoryItemsPerContainer
  else items

/-- A missing, empty or unreadable time is recent. -/
@[grind =] def isWithinRetention (value : Option String) (cutoffMs : ℤ) : Bool :=
  match value with
  | none => true
  | some value =>
    if value = "" then true
    else
      match IsoDate.parse value with
      | none => true
      | some timestamp => cutoffMs ≤ timestamp

def isRetainableTerminalLine (line : Archive.TerminalLine) : Bool := line.stream != "stdin"

def terminalForLocalHistory (terminal : Archive.TerminalSnapshot) : Archive.TerminalSnapshot :=
  { terminal with
    running := false
    displayRevision := none
    displayChunks := none
    lines := (terminal.lines.filter isRetainableTerminalLine).rtake 1000 }

/-- Sorted by name, in a stable way. -/
def terminalsForLocalHistory (localeCompare : String → String → Ordering)
    (terminals : List Archive.TerminalSnapshot) : List Archive.TerminalSnapshot :=
  (terminals.map terminalForLocalHistory).mergeSort fun left right ↦
    (localeCompare left.name right.name).isLE

def cutoffMs (now retentionDays : ℤ) : ℤ := now - retentionDays * 24 * 60 * 60 * 1000

/-- What is stored of the thread graph, or nothing, when a status of it cannot be converted to a
text. -/
@[grind =] def prunedThreadGraph (codexThreadGraph : Option CodexThreadGraph) :
    Option (Option CodexThreadGraph) :=
  match codexThreadGraph with
  | some graph =>
    if (truthyText graph.activeThreadId).isSome then
      (normalizeCodexThreadGraph graph.toJson).map some
    else some none
  | none => some none

def pruneLocalRoomHistory (localeCompare : String → String → Ordering)
    (payload : LocalRoomHistoryPayload) (now retentionDays : ℤ) : Option LocalRoomHistoryPayload :=
  let cutoff := cutoffMs now retentionDays
  let within (time : String) : Bool := isWithinRetention (some time) cutoff
  (prunedThreadGraph payload.codexThreadGraph).map fun codexThreadGraph ↦
    { messages :=
        retainNewest (payload.messages.filter fun message ↦
          within (message.createdAt.getD message.time))
      chatEdits := retainNewest (payload.chatEdits.filter fun edit ↦ within edit.editedAt)
      chatDeletes :=
        retainNewest (payload.chatDeletes.filter fun deletion ↦ within deletion.deletedAt)
      readState := payload.readState
      terminalRequests :=
        retainNewest (payload.terminalRequests.filter fun request ↦ within request.requestedAt)
      fileSaveRequests :=
        some (retainNewest ((payload.fileSaveRequests.getD []).filter fun request ↦
          within request.requestedAt))
      browserRequests :=
        retainNewest (payload.browserRequests.filter fun request ↦ within request.requestedAt)
      inviteRequests :=
        retainNewest (payload.inviteRequests.filter fun request ↦ within request.requestedAt)
      codexEvents := retainNewest (payload.codexEvents.filter fun event ↦ within event.createdAt)
      codexActivities :=
        (payload.codexActivities.filter fun activity ↦ within activity.updatedAt).rtake
          maxCodexActivitiesPerRoom
      gitWorkflowEvents :=
        retainNewest (payload.gitWorkflowEvents.filter fun event ↦ within event.createdAt)
      githubActionsEvents :=
        retainNewest (payload.githubActionsEvents.filter fun event ↦ within event.checkedAt)
      localPreviews :=
        retainNewest (payload.localPreviews.filter fun preview ↦ within preview.updatedAt)
      terminalSnapshots :=
        retainNewest (terminalsForLocalHistory localeCompare
          (payload.terminalSnapshots.filter fun terminal ↦ within terminal.startedAt))
      hostHandoffs :=
        retainNewest (payload.hostHandoffs.filter fun handoff ↦ within handoff.createdAt)
      queuedCodexTurns :=
        retainNewest (payload.queuedCodexTurns.filter fun turn ↦ within turn.queuedAt)
      roomGoal := payload.roomGoal.filter fun goal ↦ within goal.updatedAt
      codexThreadGraph := codexThreadGraph }

/-! ### Containers -/

/-- The records of a container, with their times as texts. -/
structure Container where
  Record : Type
  limit : ℕ
  time : Record → String
  records : LocalRoomHistoryPayload → List Record

/-- The containers whose times are written by `toISOString`. -/
def containers : List Container :=
  [⟨_, maxLocalHistoryItemsPerContainer, fun message ↦ message.createdAt.getD message.time,
      LocalRoomHistoryPayload.messages⟩,
    ⟨_, maxLocalHistoryItemsPerContainer, ChatEditPlaintextPayload.editedAt,
      LocalRoomHistoryPayload.chatEdits⟩,
    ⟨_, maxLocalHistoryItemsPerContainer, ChatDeletePlaintextPayload.deletedAt,
      LocalRoomHistoryPayload.chatDeletes⟩,
    ⟨_, maxLocalHistoryItemsPerContainer, Archive.TerminalCommandRequest.requestedAt,
      LocalRoomHistoryPayload.terminalRequests⟩,
    ⟨_, maxLocalHistoryItemsPerContainer, Archive.WorkspaceFileSaveRequest.requestedAt,
      fun payload ↦ payload.fileSaveRequests.getD []⟩,
    ⟨_, maxLocalHistoryItemsPerContainer, Archive.BrowserAccessRequest.requestedAt,
      LocalRoomHistoryPayload.browserRequests⟩,
    ⟨_, maxLocalHistoryItemsPerContainer, InviteJoinRequest.requestedAt,
      LocalRoomHistoryPayload.inviteRequests⟩,
    ⟨_, maxLocalHistoryItemsPerContainer, Archive.CodexRoomEvent.createdAt,
      LocalRoomHistoryPayload.codexEvents⟩,
    ⟨_, maxCodexActivitiesPerRoom, Archive.CodexActivity.updatedAt,
      LocalRoomHistoryPayload.codexActivities⟩,
    ⟨_, maxLocalHistoryItemsPerContainer, Archive.GitWorkflowEvent.createdAt,
      LocalRoomHistoryPayload.gitWorkflowEvents⟩,
    ⟨_, maxLocalHistoryItemsPerContainer, Archive.GitHubActionsEvent.checkedAt,
      LocalRoomHistoryPayload.githubActionsEvents⟩,
    ⟨_, maxLocalHistoryItemsPerContainer, Archive.LocalPreviewRecord.updatedAt,
      LocalRoomHistoryPayload.localPreviews⟩,
    ⟨_, maxLocalHistoryItemsPerContainer, HostHandoffRecord.createdAt,
      LocalRoomHistoryPayload.hostHandoffs⟩,
    ⟨_, maxLocalHistoryItemsPerContainer, QueuedCodexTurn.queuedAt,
      LocalRoomHistoryPayload.queuedCodexTurns⟩]

/-- The instant that a text in ISO format denotes. -/
def instantOf (time : String) : ℤ := (IsoDate.parse time).getD 0

/-- The start of a terminal: milliseconds in decimal. -/
def startOf (terminal : Archive.TerminalSnapshot) : ℤ :=
  ((IsoDate.digits? terminal.startedAt.toList).getD 0 : ℕ)

/-- The records have the times that their writers produce. The native clock counts milliseconds and
is past the year 2001, and the statuses of threads are texts. -/
structure LocalRoomHistoryPayload.Written (payload : LocalRoomHistoryPayload) : Prop where
  containers : ∀ c ∈ containers, ∀ record ∈ c.records payload,
    (IsoDate.parse (c.time record)).isSome
  terminals : ∀ terminal ∈ payload.terminalSnapshots,
    ∃ ms : ℕ, 10 ^ 12 ≤ ms ∧ terminal.startedAt = toString ms
  roomGoal : ∀ goal, payload.roomGoal = some goal → (IsoDate.parse goal.updatedAt).isSome
  threads : ∀ graph, payload.codexThreadGraph = some graph → ∀ id node,
    graph.nodesById.get id = some (.node node) → ∃ text, node.status = .string text

/-! ### What pruning is for -/

/-- Each container of `kept` has the newest records of `payload` that are not older than the
cutoff. -/
structure KeepsRecords (localeCompare : String → String → Ordering) (cutoff : ℤ)
    (payload kept : LocalRoomHistoryPayload) : Prop where
  containers : ∀ c ∈ containers, List.KeepsNewest c.limit (fun record ↦ instantOf (c.time record))
    cutoff (c.records payload) (c.records kept)
  terminals : List.KeepsNewest maxLocalHistoryItemsPerContainer startOf cutoff
    (terminalsForLocalHistory localeCompare payload.terminalSnapshots) kept.terminalSnapshots
  roomGoal : kept.roomGoal = payload.roomGoal.filter fun goal ↦ cutoff ≤ instantOf goal.updatedAt
  readState : kept.readState = payload.readState

/-- The same payload, up to the order in which the nodes of the thread graph are listed. -/
structure LocalRoomHistoryPayload.Same (a b : LocalRoomHistoryPayload) : Prop where
  rest : { a with codexThreadGraph := none } = { b with codexThreadGraph := none }
  graph : Option.Rel CodexThreadGraph.Same a.codexThreadGraph b.codexThreadGraph

/-- Each container has a part of the records. -/
structure LocalRoomHistoryPayload.IsPartOf (a b : LocalRoomHistoryPayload) : Prop where
  containers : ∀ c ∈ containers, (c.records a).Sublist (c.records b)
  terminals : a.terminalSnapshots.Sublist b.terminalSnapshots
  roomGoal : ∀ goal, a.roomGoal = some goal → b.roomGoal = some goal

/-- Pruning keeps exactly the records that are not older than the retention, up to the newest ones
that the limits allow; pruning again changes nothing, and pruning later or with a smaller retention
keeps a part. -/
def HonoursRetention (localeCompare : String → String → Ordering)
    (payload : LocalRoomHistoryPayload) (now retentionDays : ℤ) : Prop :=
  ∃ kept, pruneLocalRoomHistory localeCompare payload now retentionDays = some kept ∧
    KeepsRecords localeCompare (cutoffMs now retentionDays) payload kept ∧
    (∃ again, pruneLocalRoomHistory localeCompare kept now retentionDays = some again ∧
      again.Same kept) ∧
    ∀ later fewerDays, cutoffMs now retentionDays ≤ cutoffMs later fewerDays →
      ∃ part, pruneLocalRoomHistory localeCompare payload later fewerDays = some part ∧
        part.IsPartOf kept

/-- The graph with an active thread keeps one: some value of it is read as a node, or the id is the
name of something inherited. -/
def KeepsThread (graph : CodexThreadGraph) : Prop :=
  (∃ value ∈ objectValues graph.nodeFields, ∃ node, normalizeNode value = some (some node)) ∨
    ∃ id ∈ objectPrototypeKeys,
      normalizeCodexThreadId (graph.activeThreadId.map JsonValue.string) = some id

/-- The records of a container that are not older than the cutoff. -/
def Container.recent (c : Container) (cutoff : ℤ) (payload : LocalRoomHistoryPayload) :
    List c.Record :=
  (c.records payload).filter fun record ↦ cutoff ≤ instantOf (c.time record)

/-- No terminal among the last ones by name is older than the cutoff, and what a limit leaves out is
not newer than what it keeps. -/
structure LimitsApply (localeCompare : String → String → Ordering) (cutoff : ℤ)
    (payload : LocalRoomHistoryPayload) : Prop where
  containers : ∀ c ∈ containers, ∀ dropped ∈ (c.recent cutoff payload).rdrop c.limit,
    ∀ record ∈ (c.recent cutoff payload).rtake c.limit,
      instantOf (c.time dropped) ≤ instantOf (c.time record)
  recentTerminals : ∀ terminal ∈ (terminalsForLocalHistory localeCompare
    payload.terminalSnapshots).rtake maxLocalHistoryItemsPerContainer, cutoff ≤ startOf terminal
  terminals : ∀ dropped ∈ (terminalsForLocalHistory localeCompare
      payload.terminalSnapshots).rdrop maxLocalHistoryItemsPerContainer,
    ∀ terminal ∈ (terminalsForLocalHistory localeCompare
      payload.terminalSnapshots).rtake maxLocalHistoryItemsPerContainer,
      startOf dropped ≤ startOf terminal

/-- The limits apply, and an active thread is known. -/
structure RetentionApplies (localeCompare : String → String → Ordering) (cutoff : ℤ)
    (payload : LocalRoomHistoryPayload) : Prop extends
    LimitsApply localeCompare cutoff payload where
  threads : ∀ graph, payload.codexThreadGraph = some graph →
    (truthyText graph.activeThreadId).isSome → KeepsThread graph

/-! ### Times -/

theorem retainNewest_eq {α : Type} (items : List α) :
    retainNewest items = items.rtake maxLocalHistoryItemsPerContainer := by
  unfold retainNewest
  split
  · rfl
  · next h => exact (List.rtake_of_length_le (Nat.le_of_not_lt h)).symm

theorem isWithinRetention_of_isSome {time : String} (h : (IsoDate.parse time).isSome)
    (cutoff : ℤ) : isWithinRetention (some time) cutoff = decide (cutoff ≤ instantOf time) := by
  obtain ⟨timestamp, htime⟩ := Option.isSome_iff_exists.mp h
  have hne : time ≠ "" := by
    rintro rfl
    exact absurd htime (Option.some_ne_none timestamp).symm
  unfold isWithinRetention instantOf
  dsimp only
  rw [if_neg hne, htime]
  rfl

/-- Digits alone are no date: there is a hyphen after the year. -/
theorem parse_of_isDigit {time : String} (h : ∀ c ∈ time.toList, c.isDigit = true) :
    IsoDate.parse time = none := by
  unfold IsoDate.parse
  split
  · next heq =>
    rw [heq] at h
    have hhyphen := h '-' (by simp)
    exact absurd hhyphen (by decide)
  · rfl

/-- No cutoff reaches a time in decimal. -/
theorem isWithinRetention_decimal (ms : ℕ) (cutoff : ℤ) :
    isWithinRetention (some (toString ms)) cutoff = true := by
  have hdigits : ∀ c ∈ (toString ms).toList, c.isDigit = true := by
    intro c hc
    rw [Nat.toString_eq_repr, Nat.repr, String.toList_ofList] at hc
    exact Nat.isDigit_of_mem_toDigits (by omega) (by omega) hc
  unfold isWithinRetention
  dsimp only
  split
  · rfl
  · rw [parse_of_isDigit hdigits]

/-! ### What is kept -/

variable {localeCompare : String → String → Ordering} {payload kept : LocalRoomHistoryPayload}
  {now retentionDays cutoff : ℤ}

theorem records_prune
    (h : pruneLocalRoomHistory localeCompare payload now retentionDays = some kept) :
    ∀ c ∈ containers, c.records kept =
      ((c.records payload).filter fun record ↦
        isWithinRetention (some (c.time record)) (cutoffMs now retentionDays)).rtake c.limit := by
  obtain ⟨graph, -, rfl⟩ := Option.map_eq_some_iff.mp h
  simp only [containers, List.forall_mem_cons, List.not_mem_nil, false_implies, implies_true,
    and_true]
  refine ⟨?_, ?_, ?_, ?_, ?_, ?_, ?_, ?_, trivial, ?_, ?_, ?_, ?_, ?_⟩ <;> exact retainNewest_eq _

theorem terminals_prune (hwritten : payload.Written)
    (h : pruneLocalRoomHistory localeCompare payload now retentionDays = some kept) :
    kept.terminalSnapshots = (terminalsForLocalHistory localeCompare
      payload.terminalSnapshots).rtake maxLocalHistoryItemsPerContainer := by
  obtain ⟨graph, -, rfl⟩ := Option.map_eq_some_iff.mp h
  have hall : (payload.terminalSnapshots.filter fun terminal ↦
      isWithinRetention (some terminal.startedAt) (cutoffMs now retentionDays)) =
      payload.terminalSnapshots :=
    List.filter_eq_self.mpr fun terminal hterminal ↦ by
      obtain ⟨ms, -, hms⟩ := hwritten.terminals terminal hterminal
      rw [hms]
      exact isWithinRetention_decimal ms _
  dsimp only
  rw [hall, retainNewest_eq]

theorem roomGoal_prune (hwritten : payload.Written)
    (h : pruneLocalRoomHistory localeCompare payload now retentionDays = some kept) :
    kept.roomGoal = payload.roomGoal.filter fun goal ↦
      cutoffMs now retentionDays ≤ instantOf goal.updatedAt := by
  obtain ⟨graph, -, rfl⟩ := Option.map_eq_some_iff.mp h
  dsimp only
  rcases hgoal : payload.roomGoal with _ | goal
  · rfl
  · rw [Option.filter_some, Option.filter_some,
      isWithinRetention_of_isSome (hwritten.roomGoal goal hgoal)]

/-! ### Thread graphs -/

theorem normalizeNode_isSome {entry : ThreadGraphEntry}
    (h : ∀ node, entry = .node node → ∃ text, node.status = .string text) :
    ∃ node, normalizeNode entry.toJson = some node := by
  rcases entry with node | -
  · obtain ⟨text, htext⟩ := h node rfl
    obtain ⟨id, sessionId, parentThreadId, title, status, createdAt, updatedAt⟩ := node
    dsimp only at htext
    subst htext
    rw [← Option.isSome_iff_exists]
    rcases sessionId with _ | sessionId <;> rcases parentThreadId with _ | parentThreadId <;>
      simp only [ThreadGraphEntry.toJson, CodexThreadGraphNode.toJson, normalizeNode] <;>
      split <;> rfl
  · exact ⟨none, rfl⟩

theorem prunedThreadGraph_isSome (hwritten : payload.Written) :
    ∃ graph, prunedThreadGraph payload.codexThreadGraph = some graph := by
  unfold prunedThreadGraph
  split
  · next graph hgraph =>
    split
    · have hnodes : ∀ value ∈ objectValues graph.nodeFields,
          ∃ node, normalizeNode value = some node := by
        intro value hvalue
        obtain ⟨field, hfield, rfl⟩ := List.mem_map.mp hvalue
        obtain ⟨entry, hentry, rfl⟩ := List.mem_map.mp (mem_ownEntries.mp hfield)
        refine normalizeNode_isSome fun node hnode ↦ ?_
        refine hwritten.threads graph hgraph entry.1 node ?_
        rw [← hnode]
        exact InsertionMap.mem_entries_iff.mp hentry
      have hall : ∃ nodes, (objectValues graph.nodeFields).mapM normalizeNode = some nodes := by
        generalize objectValues graph.nodeFields = values at hnodes
        induction values with
        | nil => exact ⟨[], rfl⟩
        | cons value values ih =>
          obtain ⟨⟨node, hnode⟩, hrest⟩ := List.forall_mem_cons.mp hnodes
          obtain ⟨nodes, hall⟩ := ih hrest
          exact ⟨node :: nodes, by rw [List.mapM_cons, hnode, hall]; rfl⟩
      obtain ⟨nodes, hall⟩ := hall
      rw [normalizeCodexThreadGraph_toJson, newestNodes, hall]
      exact ⟨_, rfl⟩
    · exact ⟨none, rfl⟩
  · exact ⟨none, rfl⟩

theorem mem_of_mapM {α β : Type} {f : α → Option β} {l : List α} {l' : List β}
    (h : l.mapM f = some l') {a : α} (ha : a ∈ l) : ∃ b ∈ l', f a = some b := by
  induction l generalizing l' with
  | nil => exact absurd ha List.not_mem_nil
  | cons a' l ih =>
    rw [List.mapM_cons] at h
    obtain ⟨c, hc, h⟩ := Option.bind_eq_some_iff.mp h
    obtain ⟨rest, hrest, h⟩ := Option.bind_eq_some_iff.mp h
    obtain rfl := Option.some.inj h
    rcases List.mem_cons.mp ha with rfl | ha
    · exact ⟨c, List.mem_cons_self, hc⟩
    · obtain ⟨b, hb, hf⟩ := ih hrest ha
      exact ⟨b, List.mem_cons_of_mem _ hb, hf⟩

theorem newestNodes_ne_nil_iff {values : List JsonValue} {bounded : List CodexThreadGraphNode}
    (h : newestNodes values = some bounded) :
    bounded ≠ [] ↔ ∃ value ∈ values, ∃ node, normalizeNode value = some (some node) := by
  obtain ⟨nodes, hnodes, rfl⟩ := Option.map_eq_some_iff.mp h
  constructor
  · intro hne
    obtain ⟨node, hnode⟩ := List.exists_mem_of_ne_nil _ hne
    have hmem := List.mem_mergeSort.mp (List.mem_of_mem_take hnode)
    obtain ⟨value, hvalue, hread⟩ := exists_of_mapM hnodes (List.reduceOption_mem_iff.mp hmem)
    exact ⟨value, hvalue, node, hread⟩
  · rintro ⟨value, hvalue, node, hread⟩ hnil
    obtain ⟨read, hmem, hsome⟩ := mem_of_mapM hnodes hvalue
    obtain rfl : some node = read := Option.some.inj (hread.symm.trans hsome)
    have hsorted : node ∈ nodes.reduceOption.mergeSort fun a b ↦ decide (b.updatedAt ≤ a.updatedAt) :=
      List.mem_mergeSort.mpr (List.reduceOption_mem_iff.mpr hmem)
    rcases List.take_eq_nil_iff.mp hnil with hzero | hempty
    · exact absurd hzero (by decide)
    · rw [hempty] at hsorted
      exact absurd hsorted List.not_mem_nil

/-- An id that was read is not empty. -/
theorem truthyText_normal {id : String}
    (h : normalizeCodexThreadId (some (.string id)) = some id) :
    truthyText (some id) = some id := by
  have hne : id ≠ "" := by
    rintro rfl
    exact absurd h (by decide)
  exact Option.filter_some_pos (decide_eq_true hne)

theorem activeThreadId_isSome_iff {requested : Option String}
    {bounded : List CodexThreadGraphNode} :
    (graphOfNodes requested bounded).activeThreadId.isSome ↔
      bounded ≠ [] ∨ ∃ id ∈ objectPrototypeKeys, requested = some id := by
  rw [activeThreadId_graphOfNodes]
  rcases bounded with _ | ⟨node, bounded⟩
  · rcases requested with _ | id
    · simp
    · by_cases hid : id ∈ objectPrototypeKeys
      · simp [hid]
      · simp [hid]
  · refine ⟨fun _ ↦ Or.inl (List.cons_ne_nil _ _), fun _ ↦ ?_⟩
    split
    · split <;> rfl
    · rfl

theorem normalize_active {graph read : CodexThreadGraph}
    (h : normalizeCodexThreadGraph graph.toJson = some read) :
    (truthyText read.activeThreadId).isSome ↔ KeepsThread graph := by
  rw [normalizeCodexThreadGraph_toJson] at h
  obtain ⟨bounded, hbounded, rfl⟩ := Option.map_eq_some_iff.mp h
  rw [KeepsThread, ← newestNodes_ne_nil_iff hbounded, ← activeThreadId_isSome_iff]
  rcases hactive : (graphOfNodes (normalizeCodexThreadId
      (graph.activeThreadId.map JsonValue.string)) bounded).activeThreadId with _ | id
  · rfl
  · have hnormal := activeThreadId_normal (newestNodes_isNormal hbounded)
      (fun _ hid ↦ normalizeCodexThreadId_idem hid) hactive
    rw [truthyText_normal hnormal]

/-- Pruning again leaves the thread graph exactly when the graph keeps an active thread. -/
theorem prunedThreadGraph_again {graph kept : Option CodexThreadGraph}
    (h : prunedThreadGraph graph = some kept) :
    (∃ again, prunedThreadGraph kept = some again ∧ Option.Rel CodexThreadGraph.Same again kept) ↔
      ∀ known, graph = some known → (truthyText known.activeThreadId).isSome → KeepsThread known := by
  have hnone : prunedThreadGraph none = some none := rfl
  rcases graph with _ | known
  · obtain rfl := Option.some.inj h
    exact ⟨fun _ known hknown ↦ absurd hknown.symm (Option.some_ne_none known),
      fun _ ↦ ⟨none, hnone, Option.Rel.none⟩⟩
  · unfold prunedThreadGraph at h
    dsimp only at h
    split at h
    · next hsome =>
      obtain ⟨read, hread, rfl⟩ := Option.map_eq_some_iff.mp h
      have hkeeps : (∀ other, some known = some other → (truthyText other.activeThreadId).isSome →
          KeepsThread other) ↔ (truthyText read.activeThreadId).isSome = true := by
        rw [normalize_active hread]
        exact ⟨fun hall ↦ hall known rfl hsome, fun hkeeps other hother _ ↦
          Option.some.inj hother ▸ hkeeps⟩
      rw [hkeeps]
      unfold prunedThreadGraph
      dsimp only
      split
      · next hactive =>
        obtain ⟨again, hagain, hsame⟩ := normalizeCodexThreadGraph_again hread
        refine ⟨fun _ ↦ hactive, fun _ ↦ ⟨some again, ?_, Option.Rel.some hsame⟩⟩
        rw [hagain]
        rfl
      · next hactive =>
        refine ⟨?_, fun htrue ↦ absurd htrue hactive⟩
        rintro ⟨again, hagain, hrel⟩
        obtain rfl := Option.some.inj hagain
        nomatch hrel
    · next hactive =>
      obtain rfl := Option.some.inj h
      refine ⟨fun _ other hother hsome ↦ ?_, fun _ ↦ ⟨none, hnone, Option.Rel.none⟩⟩
      exact absurd (Option.some.inj hother ▸ hsome) hactive

/-! ### Terminals -/

theorem terminalForLocalHistory_again (terminal : Archive.TerminalSnapshot) :
    terminalForLocalHistory (terminalForLocalHistory terminal) =
      terminalForLocalHistory terminal := by
  have hretainable : ((terminal.lines.filter isRetainableTerminalLine).rtake 1000).filter
      isRetainableTerminalLine = (terminal.lines.filter isRetainableTerminalLine).rtake 1000 :=
    List.filter_eq_self.mpr fun line hline ↦
      (List.mem_filter.mp ((List.rtake_sublist _ _).subset hline)).2
  have hshort : ((terminal.lines.filter isRetainableTerminalLine).rtake 1000).length ≤ 1000 := by
    rw [List.length_rtake]
    exact Nat.min_le_left _ _
  unfold terminalForLocalHistory
  dsimp only
  rw [hretainable, List.rtake_of_length_le hshort]

/-- What is in order as the history keeps it stays so. -/
theorem terminalsForLocalHistory_again [Std.TransCmp localeCompare]
    {terminals part : List Archive.TerminalSnapshot}
    (h : part.Sublist (terminalsForLocalHistory localeCompare terminals)) :
    terminalsForLocalHistory localeCompare part = part := by
  have hmap : part.map terminalForLocalHistory = part := by
    refine (List.map_congr_left fun terminal hterminal ↦ ?_).trans (List.map_id _)
    obtain ⟨stored, -, rfl⟩ := List.mem_map.mp (List.mem_mergeSort.mp (h.subset hterminal))
    exact terminalForLocalHistory_again stored
  have hsorted : (terminalsForLocalHistory localeCompare terminals).Pairwise fun left right ↦
      (localeCompare left.name right.name).isLE = true :=
    List.pairwise_mergeSort (fun _ _ _ ↦ Std.TransCmp.isLE_trans)
      (fun left right ↦ by
        have hswap : localeCompare right.name left.name =
            (localeCompare left.name right.name).swap := Std.OrientedCmp.eq_swap
        rw [hswap]
        cases localeCompare left.name right.name <;> rfl) _
  rw [terminalsForLocalHistory, hmap]
  exact List.mergeSort_of_pairwise (hsorted.sublist h)

/-! ### The retention -/

theorem prune_isSome (hwritten : payload.Written) (now retentionDays : ℤ) :
    ∃ kept, pruneLocalRoomHistory localeCompare payload now retentionDays = some kept := by
  obtain ⟨graph, hgraph⟩ := prunedThreadGraph_isSome hwritten
  unfold pruneLocalRoomHistory
  rw [hgraph]
  exact ⟨_, rfl⟩

theorem recent_eq (hwritten : payload.Written) {c : Container} (hc : c ∈ containers) (cutoff : ℤ) :
    ((c.records payload).filter fun record ↦ isWithinRetention (some (c.time record)) cutoff) =
      c.recent cutoff payload :=
  List.filter_congr fun record hrecord ↦
    isWithinRetention_of_isSome (hwritten.containers c hc record hrecord) cutoff

theorem keepsRecords_iff (hwritten : payload.Written)
    (h : pruneLocalRoomHistory localeCompare payload now retentionDays = some kept) :
    KeepsRecords localeCompare (cutoffMs now retentionDays) payload kept ↔
      LimitsApply localeCompare (cutoffMs now retentionDays) payload := by
  set cutoff := cutoffMs now retentionDays with hcutoff
  have hcontainer : ∀ c ∈ containers, List.KeepsNewest c.limit
      (fun record ↦ instantOf (c.time record)) cutoff (c.records payload) (c.records kept) ↔
        ∀ dropped ∈ (c.recent cutoff payload).rdrop c.limit,
        ∀ record ∈ (c.recent cutoff payload).rtake c.limit,
          instantOf (c.time dropped) ≤ instantOf (c.time record) := by
    intro c hc
    rw [records_prune h c hc, recent_eq hwritten hc]
    have hrecent : ∀ record ∈ (c.recent cutoff payload).rtake c.limit,
        cutoff ≤ instantOf (c.time record) := fun record hrecord ↦
      of_decide_eq_true (List.mem_filter.mp ((List.rtake_sublist _ _).subset hrecord)).2
    exact (List.keepsNewest_rtake_iff fun _ _ hle ↦ decide_eq_true hle).trans
      (and_iff_right hrecent)
  have hterminals : kept.terminalSnapshots = _ := terminals_prune hwritten h
  constructor
  · intro hkeeps
    have hnewest := hkeeps.terminals
    rw [hterminals] at hnewest
    obtain ⟨hrecent, holder⟩ := List.keepsNewest_rtake_self_iff.mp hnewest
    exact ⟨fun c hc ↦ (hcontainer c hc).mp (hkeeps.containers c hc), hrecent, holder⟩
  · intro happly
    refine ⟨fun c hc ↦ (hcontainer c hc).mpr (happly.containers c hc), ?_,
      roomGoal_prune hwritten h, ?_⟩
    · rw [hterminals]
      exact List.keepsNewest_rtake_self_iff.mpr ⟨happly.recentTerminals, happly.terminals⟩
    · obtain ⟨graph, -, rfl⟩ := Option.map_eq_some_iff.mp h
      rfl

/-- A record that was kept is kept again. -/
theorem records_again (h : pruneLocalRoomHistory localeCompare payload now retentionDays = some kept)
    {c : Container} (hc : c ∈ containers) :
    ((c.records kept).filter fun record ↦
      isWithinRetention (some (c.time record)) (cutoffMs now retentionDays)).rtake c.limit =
        c.records kept := by
  have hkept := records_prune h c hc
  have hwithin : ((c.records kept).filter fun record ↦
      isWithinRetention (some (c.time record)) (cutoffMs now retentionDays)) = c.records kept := by
    refine List.filter_eq_self.mpr fun record hrecord ↦ ?_
    rw [hkept] at hrecord
    exact (List.mem_filter.mp ((List.rtake_sublist _ _).subset hrecord)).2
  rw [hwithin]
  refine List.rtake_of_length_le ?_
  rw [hkept, List.length_rtake]
  exact Nat.min_le_left _ _

theorem terminals_again [Std.TransCmp localeCompare] (hwritten : payload.Written)
    (h : pruneLocalRoomHistory localeCompare payload now retentionDays = some kept) :
    retainNewest (terminalsForLocalHistory localeCompare
      (kept.terminalSnapshots.filter fun terminal ↦
        isWithinRetention (some terminal.startedAt) (cutoffMs now retentionDays))) =
      kept.terminalSnapshots := by
  have hkept := terminals_prune hwritten h
  have hpart : kept.terminalSnapshots.Sublist
      (terminalsForLocalHistory localeCompare payload.terminalSnapshots) :=
    hkept ▸ List.rtake_sublist _ _
  have hall : (kept.terminalSnapshots.filter fun terminal ↦
      isWithinRetention (some terminal.startedAt) (cutoffMs now retentionDays)) =
      kept.terminalSnapshots := by
    refine List.filter_eq_self.mpr fun terminal hterminal ↦ ?_
    obtain ⟨stored, hstored, rfl⟩ :=
      List.mem_map.mp (List.mem_mergeSort.mp (hpart.subset hterminal))
    obtain ⟨ms, -, hms⟩ := hwritten.terminals stored hstored
    show isWithinRetention (some stored.startedAt) _ = true
    rw [hms]
    exact isWithinRetention_decimal ms _
  rw [hall, terminalsForLocalHistory_again hpart, retainNewest_eq]
  refine List.rtake_of_length_le ?_
  rw [hkept, List.length_rtake]
  exact Nat.min_le_left _ _

/-- Payloads with the same containers and the same other fields are the same. -/
theorem rest_eq {a b : LocalRoomHistoryPayload}
    (hrecords : ∀ c ∈ containers, c.records a = c.records b)
    (hsaves : a.fileSaveRequests.isSome = b.fileSaveRequests.isSome)
    (hterminals : a.terminalSnapshots = b.terminalSnapshots)
    (hreadState : a.readState = b.readState) (hroomGoal : a.roomGoal = b.roomGoal) :
    { a with codexThreadGraph := none } = { b with codexThreadGraph := none } := by
  simp only [containers, List.forall_mem_cons, List.not_mem_nil, false_implies, implies_true,
    and_true] at hrecords
  obtain ⟨h₁, h₂, h₃, h₄, hsaved, h₆, h₇, h₈, h₉, h₁₀, h₁₁, h₁₂, h₁₃, h₁₄⟩ := hrecords
  have hfileSaveRequests : a.fileSaveRequests = b.fileSaveRequests := by
    rcases ha : a.fileSaveRequests with _ | saves <;> rcases hb : b.fileSaveRequests with _ | others <;>
      simp_all
  rw [h₁, h₂, h₃, h₄, hfileSaveRequests, h₆, h₇, h₈, h₉, h₁₀, h₁₁, h₁₂, h₁₃, h₁₄, hterminals,
    hreadState, hroomGoal]

theorem prune_again_iff [Std.TransCmp localeCompare] (hwritten : payload.Written)
    (h : pruneLocalRoomHistory localeCompare payload now retentionDays = some kept) :
    (∃ again, pruneLocalRoomHistory localeCompare kept now retentionDays = some again ∧
      again.Same kept) ↔
      ∀ graph, payload.codexThreadGraph = some graph →
        (truthyText graph.activeThreadId).isSome → KeepsThread graph := by
  obtain ⟨graph, hgraph, hkept⟩ := Option.map_eq_some_iff.mp h
  have hcodexThreadGraph : kept.codexThreadGraph = graph := by rw [← hkept]
  rw [← prunedThreadGraph_again hgraph, ← hcodexThreadGraph]
  constructor
  · rintro ⟨again, hagain, hsame⟩
    obtain ⟨graph', hgraph', rfl⟩ := Option.map_eq_some_iff.mp hagain
    exact ⟨graph', hgraph', hsame.graph⟩
  · rintro ⟨graph', hgraph', hsame⟩
    have hagain : pruneLocalRoomHistory localeCompare kept now retentionDays = some _ :=
      Option.map_eq_some_iff.mpr ⟨graph', hgraph', rfl⟩
    refine ⟨_, hagain, rest_eq (fun c hc ↦ ?_) ?_ (terminals_again hwritten h) rfl ?_, hsame⟩
    · rw [records_prune hagain c hc]
      exact records_again h hc
    · rw [← hkept]
      rfl
    · show kept.roomGoal.filter _ = _
      rw [← hkept]
      dsimp only
      rw [Option.filter_filter]
      simp only [Bool.and_self]

theorem prune_later (hwritten : payload.Written)
    (h : pruneLocalRoomHistory localeCompare payload now retentionDays = some kept)
    (happly : LimitsApply localeCompare (cutoffMs now retentionDays) payload)
    {later fewerDays : ℤ} (hlater : cutoffMs now retentionDays ≤ cutoffMs later fewerDays) :
    ∃ part, pruneLocalRoomHistory localeCompare payload later fewerDays = some part ∧
      part.IsPartOf kept := by
  obtain ⟨part, hpart⟩ : ∃ part,
      pruneLocalRoomHistory localeCompare payload later fewerDays = some part :=
    prune_isSome hwritten later fewerDays
  refine ⟨part, hpart, fun c hc ↦ ?_, ?_, fun goal hgoal ↦ ?_⟩
  · rw [records_prune hpart c hc, records_prune h c hc, recent_eq hwritten hc,
      recent_eq hwritten hc]
    refine List.rtake_filter_sublist (fun record _ hrecord ↦ ?_) fun dropped hdropped record hrecord
      hd ↦ ?_
    · exact decide_eq_true (hlater.trans (of_decide_eq_true hrecord))
    · exact decide_eq_true ((of_decide_eq_true hd).trans
        (happly.containers c hc dropped hdropped record hrecord))
  · rw [terminals_prune hwritten hpart, terminals_prune hwritten h]
  · rw [roomGoal_prune hwritten hpart] at hgoal
    rw [roomGoal_prune hwritten h]
    obtain ⟨hstored, hrecent⟩ := Option.filter_eq_some_iff.mp hgoal
    exact Option.filter_eq_some_iff.mpr
      ⟨hstored, decide_eq_true (hlater.trans (of_decide_eq_true hrecent))⟩

/-- A terminal that was started at a time in milliseconds. -/
private def startedTerminal (startedAt : String) : Archive.TerminalSnapshot :=
  { id := "t", roomId := "r", name := "shell", cwd := "/", command := "sh", running := true,
    exitStatus := none, startedAt := startedAt, lines := [] }

@[grind =] private def terminalHistory (startedAt : String) : LocalRoomHistoryPayload :=
  { readState := { unread := 0 }, terminalSnapshots := [startedTerminal startedAt] }

theorem written_terminalHistory {startedAt : String} {ms : ℕ} (hms : 10 ^ 12 ≤ ms)
    (h : startedAt = toString ms) : (terminalHistory startedAt).Written where
  containers := by simp [containers, terminalHistory]
  terminals := List.forall_mem_singleton.mpr ⟨ms, hms, h⟩
  roomGoal _ hgoal := absurd hgoal (Option.some_ne_none _).symm
  threads _ hgraph := absurd hgraph (Option.some_ne_none _).symm

theorem terminals_terminalHistory (startedAt : String) :
    terminalsForLocalHistory localeCompare (terminalHistory startedAt).terminalSnapshots =
      [terminalForLocalHistory (startedTerminal startedAt)] := List.mergeSort_singleton _

theorem limitsApply_terminalHistory_iff (startedAt : String) :
    LimitsApply localeCompare cutoff (terminalHistory startedAt) ↔
      cutoff ≤ startOf (startedTerminal startedAt) := by
  have hone : [terminalForLocalHistory (startedTerminal startedAt)].length ≤
      maxLocalHistoryItemsPerContainer := by
    rw [List.length_singleton]
    decide
  have hrtake := List.rtake_of_length_le hone
  have hrdrop := List.rdrop_of_length_le hone
  constructor
  · intro h
    have hrecent := h.recentTerminals
    rw [terminals_terminalHistory, hrtake, List.forall_mem_singleton] at hrecent
    exact hrecent
  · intro h
    refine ⟨?_, ?_, ?_⟩
    · simp [containers, terminalHistory, Container.recent]
    · rw [terminals_terminalHistory, hrtake, List.forall_mem_singleton]
      exact h
    · rw [terminals_terminalHistory, hrdrop]
      exact List.forall_mem_nil _

end MultAIplayer.Desktop.Retention
