import MultAIplayer.Desktop.ChatMessages
import MultAIplayer.Desktop.HostHandoffs
import MultAIplayer.Lib.InsertionMap

/-!
# Read-only room archives

`buildReadOnlyRoomArchive` copies what a desktop holds of a room into an archive, record by record.
Pending requests, the ids of attachment blobs and the directories above a terminal's working
directory do not get there, and neither do the containers that are not copied
(`build_eq_iff`). The ids of Codex threads do: they are fields of the Codex events and activities,
which are copied as they are (`not_build_eq_threads`).

What two stores have in common for a room, up to what an archive should leave out, is
`SameButOmitted`; it names no function of the archive.
-/

namespace MultAIplayer.Desktop.Archive

/-! ### Records of a room -/

structure ChatAttachment where
  id : String
  name : String
  type : String
  size : ℕ
  content : Option String := none
  blobId : Option String := none
  blobBytes : Option ℕ := none
  truncated : Option Bool := none
  deriving DecidableEq

structure ChatReactor where
  userId : String
  name : String
  deriving DecidableEq

structure ChatReaction where
  emoji : String
  reactors : List ChatReactor
  deriving DecidableEq

/-- A message with attachments of a kind. -/
structure ChatMessage (A : Type) where
  id : String
  author : String
  authorUserId : Option String := none
  role : ChatRole
  body : String
  time : String
  createdAt : Option String := none
  editedAt : Option String := none
  editedByUserId : Option String := none
  deletedAt : Option String := none
  deletedBy : Option String := none
  deletedByUserId : Option String := none
  replyTo : Option String := none
  attachments : Option (List A) := none
  reactions : Option (List ChatReaction) := none
  deriving DecidableEq

inductive RequestStatus
  | pending
  | approved
  | denied
  deriving DecidableEq

structure TerminalCommandRequest where
  id : String
  requester : String
  requesterUserId : String
  command : String
  cwd : String
  requestedAt : String
  status : RequestStatus
  deriving DecidableEq

structure BrowserAccessRequest where
  id : String
  requester : String
  requesterUserId : String
  url : String
  reason : String
  requestedAt : String
  status : RequestStatus
  deriving DecidableEq

structure WorkspaceFileSaveRequest where
  id : String
  requester : String
  requesterUserId : String
  path : String
  previousContent : String
  nextContent : String
  requestedAt : String
  status : RequestStatus
  deriving DecidableEq

structure CodexTurnRiskFlag where
  id : String
  label : String
  source : String
  risk : String
  deriving DecidableEq

structure CodexRoomEvent where
  turnId : String
  status : CodexEventStatus
  message : String
  model : String
  threadId : Option String := none
  eventName : Option String := none
  consumedMessageIds : Option (List String) := none
  riskFlags : Option (List CodexTurnRiskFlag) := none
  host : String
  hostUserId : String
  createdAt : String
  deriving DecidableEq

inductive FileChangeAction
  | add
  | delete
  | update
  deriving DecidableEq

structure FileChange where
  path : String
  action : FileChangeAction
  diff : Option String := none
  deriving DecidableEq

structure AgentState where
  threadId : String
  status : String
  message : Option String := none
  deriving DecidableEq

inductive ReasoningEffort
  | none
  | minimal
  | low
  | medium
  | high
  | xhigh
  | max
  deriving DecidableEq

inductive WebSearchAction
  | search
  | openPage
  | findInPage
  | other
  deriving DecidableEq

inductive CodexActivityDetail where
  | reasoning (summaries : List String) (rawContent : Option (List String))
  | command (command : String) (output : Option String) (exitCode : Option ℤ) (durationMs : Option ℕ)
  | fileChange (changes : List FileChange)
  | tool (name : String) (server arguments result error : Option String) (durationMs : Option ℕ)
  | webSearch (action : Option WebSearchAction) (query url pattern : Option String)
  | imageGeneration (prompt : Option String)
  | agent (prompt model : Option String) (reasoningEffort : Option ReasoningEffort)
    (states : Option (List AgentState))
  deriving DecidableEq

inductive AgentAction
  | spawn
  | send
  | resume
  | wait
  | close
  deriving DecidableEq

/-- The ids of an agent's sender and receivers are thread ids. -/
structure ActivityAgent where
  action : AgentAction
  senderId : String
  receiverIds : List String
  deriving DecidableEq

inductive ActivityKind
  | command
  | fileChange
  | tool
  | webSearch
  | imageGeneration
  | agent
  | review
  | hook
  | reasoning
  | other
  deriving DecidableEq

inductive ActivityStatus
  | started
  | running
  | completed
  | failed
  | declined
  deriving DecidableEq

structure CodexActivity where
  activityId : String
  turnId : String
  itemId : String
  threadId : Option String := none
  kind : ActivityKind
  status : ActivityStatus
  title : String
  details : Option CodexActivityDetail := none
  agent : Option ActivityAgent := none
  startedAt : String
  updatedAt : String
  host : String
  hostUserId : String
  deriving DecidableEq

structure GitWorkflowResult where
  command : String
  cwd : String
  status : Option ℤ
  stdout : String
  stderr : String
  deriving DecidableEq

structure PullRequest where
  number : ℤ
  url : String
  deriving DecidableEq

inductive GitWorkflowStatus
  | started
  | completed
  | failed
  | prOpened
  deriving DecidableEq

structure GitWorkflowEvent where
  status : GitWorkflowStatus
  branch : String
  push : Bool
  message : String
  runner : String
  runnerUserId : String
  createdAt : String
  results : Option (List GitWorkflowResult) := none
  pullRequest : Option PullRequest := none
  deriving DecidableEq

inductive ActionsTone
  | green
  | yellow
  | red
  | dark
  | muted
  deriving DecidableEq

structure ActionsSummary where
  label : String
  detail : String
  tone : ActionsTone
  deriving DecidableEq

structure ActionRun where
  id : ℤ
  name : String
  displayTitle : Option String := none
  runNumber : Option ℤ := none
  workflowId : Option ℤ := none
  status : String
  conclusion : Option String
  branch : Option String := none
  headSha : Option String := none
  event : Option String := none
  url : String
  createdAt : String
  updatedAt : String
  deriving DecidableEq

structure GitHubActionsEvent where
  owner : String
  repo : String
  branch : String
  summary : ActionsSummary
  message : String
  checkedBy : String
  checkedByUserId : String
  checkedAt : String
  runs : List ActionRun
  deriving DecidableEq

inductive PreviewStatus
  | starting
  | live
  | stopped
  | error
  deriving DecidableEq

structure LocalPreviewRecord where
  id : String
  sharedBy : String
  sharedByUserId : String
  sourceUrl : String
  publicUrl : Option String := none
  status : PreviewStatus
  message : Option String := none
  createdAt : String
  updatedAt : String
  deriving DecidableEq

structure TerminalLine where
  stream : String
  text : String
  deriving DecidableEq

structure DisplayChunk where
  revision : ℕ
  text : String
  deriving DecidableEq

structure TerminalSnapshot where
  id : String
  roomId : String
  name : String
  cwd : String
  command : String
  running : Bool
  exitStatus : Option ℤ
  startedAt : String
  lines : List TerminalLine
  displayRevision : Option ℕ := none
  displayChunks : Option (List DisplayChunk) := none
  deriving DecidableEq

/-! ### The store -/

inductive GoalStatus
  | active
  | paused
  | blocked
  | usageLimited
  | budgetLimited
  | complete
  deriving DecidableEq

structure RoomGoal where
  id : String
  text : String
  status : GoalStatus
  startedAt : String
  updatedAt : String
  elapsedMs : ℕ
  deriving DecidableEq

structure CodexThreadGraphNode where
  id : String
  sessionId : Option String := none
  parentThreadId : Option String := none
  title : String
  deriving DecidableEq

structure CodexThreadGraph where
  activeThreadId : Option String
  nodes : List CodexThreadGraphNode
  deriving DecidableEq

structure CodexRuntimeRoomState where
  events : Option (List CodexRoomEvent) := none
  activities : Option (List CodexActivity) := none
  pendingApproval : Option PendingCodexApproval := none
  queuedApprovals : Option (List QueuedCodexTurn) := none
  goal : Option RoomGoal := none
  threadGraph : Option CodexThreadGraph := none
  hostHandoffs : Option (List HostHandoffRecord) := none
  continuation : Option HostHandoffRecord := none

structure GitWorkflowRoomState where
  events : Option (List GitWorkflowEvent) := none

structure GitHubActionsRoomState where
  events : Option (List GitHubActionsEvent) := none

structure GitWorkflowRuntimeRoomState where
  workflow : Option GitWorkflowRoomState := none
  actions : Option GitHubActionsRoomState := none

structure TerminalRoomState where
  requests : Option (List TerminalCommandRequest) := none

structure FilePanelRoomState where
  saveRequests : Option (List WorkspaceFileSaveRequest) := none

structure BrowserRoomState where
  requests : Option (List BrowserAccessRequest) := none

structure LocalPreviewRoomState where
  previews : Option (List LocalPreviewRecord) := none

structure InviteJoinRequest where
  id : String
  inviteId : String
  requester : String
  requesterUserId : String
  requesterDeviceId : String
  keyPackageId : String
  keyPackageHash : String
  status : RequestStatus

structure InviteRoomState where
  requests : Option (List InviteJoinRequest) := none
  link : Option String := none
  admission : Option String := none

structure AppStoreState where
  rooms : List RoomRecord := []
  messagesByRoom : InsertionMap String (List (ChatMessage ChatAttachment)) := .empty
  chatEditsByRoom : InsertionMap String (List ChatEditPlaintextPayload) := .empty
  chatDeletesByRoom : InsertionMap String (List ChatDeletePlaintextPayload) := .empty
  codexRuntimeByRoom : InsertionMap String CodexRuntimeRoomState := .empty
  gitWorkflowRuntimeByRoom : InsertionMap String GitWorkflowRuntimeRoomState := .empty
  terminalRuntimeByRoom : InsertionMap String TerminalRoomState := .empty
  filePanelByRoom : InsertionMap String FilePanelRoomState := .empty
  browserByRoom : InsertionMap String BrowserRoomState := .empty
  localPreviewByRoom : InsertionMap String LocalPreviewRoomState := .empty
  inviteByRoom : InsertionMap String InviteRoomState := .empty
  terminals : List TerminalSnapshot := []

/-! ### The archive -/

/-- An attachment without its `blobId`. -/
structure ArchivedAttachment where
  id : String
  name : String
  type : String
  size : ℕ
  content : Option String
  blobBytes : Option ℕ
  truncated : Option Bool
  blobCiphertextOmitted : Bool := true
  deriving DecidableEq

structure ArchiveSource where
  roomName : String
  teamName : Option String
  deriving DecidableEq

structure RoomArchiveHistory where
  version : ℕ := 1
  messages : List (ChatMessage ArchivedAttachment)
  chatEdits : List ChatEditPlaintextPayload
  chatDeletes : List ChatDeletePlaintextPayload
  terminalRequests : List TerminalCommandRequest
  fileSaveRequests : List WorkspaceFileSaveRequest
  browserRequests : List BrowserAccessRequest
  codexEvents : List CodexRoomEvent
  codexActivities : List CodexActivity
  gitWorkflowEvents : List GitWorkflowEvent
  githubActionsEvents : List GitHubActionsEvent
  localPreviews : List LocalPreviewRecord
  terminalSnapshots : List TerminalSnapshot
  deriving DecidableEq

structure RoomArchiveBody where
  version : ℕ := 1
  exportedAt : String
  source : ArchiveSource
  omissions : List String
  history : RoomArchiveHistory
  deriving DecidableEq

def roomArchiveOmissions : List String :=
  ["MLS group, epoch, exporter, device, signing, HPKE, and private-key state",
    "invite capabilities, KeyPackages, Welcome messages, and pending admissions",
    "pending approvals, queued turns, active goals, host handoff authority, and Codex thread/session ids",
    "attachment blob ciphertext and live process authority",
    "workspace paths are reduced to display basenames in terminal transcripts"]

def values {α : Type} (input : Option (List α)) : List α := input.getD []

def isResolved (status : RequestStatus) : Bool := status ≠ .pending

def sanitizeAttachment (attachment : ChatAttachment) : ArchivedAttachment where
  id := attachment.id
  name := attachment.name
  type := attachment.type
  size := attachment.size
  content := attachment.content
  blobBytes := attachment.blobBytes
  truncated := attachment.truncated

/-- A message with other attachments. -/
def ChatMessage.withAttachments {A B : Type} (message : ChatMessage A)
    (attachments : Option (List B)) : ChatMessage B where
  id := message.id
  author := message.author
  authorUserId := message.authorUserId
  role := message.role
  body := message.body
  time := message.time
  createdAt := message.createdAt
  editedAt := message.editedAt
  editedByUserId := message.editedByUserId
  deletedAt := message.deletedAt
  deletedBy := message.deletedBy
  deletedByUserId := message.deletedByUserId
  replyTo := message.replyTo
  attachments := attachments
  reactions := message.reactions

def sanitizeMessage (message : ChatMessage ChatAttachment) : ChatMessage ArchivedAttachment :=
  message.withAttachments (message.attachments.map (List.map sanitizeAttachment))

/-- The class `[\\/]`. -/
def isSeparator (c : Char) : Bool := c = '\\' || c = '/'

/-- `cwd.split(/[\\/]/).filter(Boolean)`. -/
@[grind =] def components (cwd : List Char) : List (List Char) :=
  (cwd.splitOnP isSeparator).filter (· ≠ [])

def sanitizeTerminal (terminal : TerminalSnapshot) : TerminalSnapshot :=
  { terminal with
    cwd := ((components terminal.cwd.toList).getLast?.map String.ofList).getD "workspace"
    running := false }

variable (state : AppStoreState) (roomId : String)

/-- `state.codexRuntimeByRoom[roomId] ?? {}`. -/
def codexRuntime : CodexRuntimeRoomState := (state.codexRuntimeByRoom.get roomId).getD {}

def gitWorkflowRuntime : GitWorkflowRuntimeRoomState :=
  (state.gitWorkflowRuntimeByRoom.get roomId).getD {}

def buildReadOnlyRoomArchive (roomName : String) (teamName : Option String) (exportedAt : String) :
    RoomArchiveBody :=
  let codex := codexRuntime state roomId
  let git := gitWorkflowRuntime state roomId
  let terminal := (state.terminalRuntimeByRoom.get roomId).getD {}
  let filePanel := (state.filePanelByRoom.get roomId).getD {}
  let browser := (state.browserByRoom.get roomId).getD {}
  let preview := (state.localPreviewByRoom.get roomId).getD {}
  let workflow := git.workflow.getD {}
  let actions := git.actions.getD {}
  { exportedAt
    source := { roomName, teamName := teamName.filter (· ≠ "") }
    omissions := roomArchiveOmissions
    history :=
      { messages := (values (state.messagesByRoom.get roomId)).map sanitizeMessage
        chatEdits := values (state.chatEditsByRoom.get roomId)
        chatDeletes := values (state.chatDeletesByRoom.get roomId)
        terminalRequests := (values terminal.requests).filter fun request ↦ isResolved request.status
        fileSaveRequests :=
          (values filePanel.saveRequests).filter fun request ↦ isResolved request.status
        browserRequests := (values browser.requests).filter fun request ↦ isResolved request.status
        codexEvents := values codex.events
        codexActivities := values codex.activities
        gitWorkflowEvents := values workflow.events
        githubActionsEvents := values actions.events
        localPreviews := values preview.previews
        terminalSnapshots :=
          (state.terminals.filter fun terminal ↦ terminal.roomId = roomId && !terminal.running).map
            sanitizeTerminal } }

/-! ### What two stores have in common -/

/-- A message but for the ids of its attachment blobs. -/
def ChatMessage.withoutBlobIds (message : ChatMessage ChatAttachment) : ChatMessage ChatAttachment :=
  { message with attachments := message.attachments.map (List.map fun a ↦ { a with blobId := none }) }

@[grind =] def CodexRoomEvent.withoutThread (event : CodexRoomEvent) : CodexRoomEvent :=
  { event with threadId := none }

@[grind =]
def AgentState.withoutThread (agent : AgentState) : AgentState := { agent with threadId := "" }

@[grind =] def CodexActivityDetail.withoutThreads : CodexActivityDetail → CodexActivityDetail
  | .agent prompt model reasoningEffort states =>
    .agent prompt model reasoningEffort (states.map (List.map AgentState.withoutThread))
  | detail => detail

@[grind =] def ActivityAgent.withoutThreads (agent : ActivityAgent) : ActivityAgent :=
  { agent with senderId := "", receiverIds := agent.receiverIds.map fun _ ↦ "" }

@[grind =] def CodexActivity.withoutThreads (activity : CodexActivity) : CodexActivity :=
  { activity with
    threadId := none
    details := activity.details.map CodexActivityDetail.withoutThreads
    agent := activity.agent.map ActivityAgent.withoutThreads }

/-- The thread ids of an activity's details. -/
def CodexActivityDetail.threadIds : CodexActivityDetail → Option (List String)
  | .agent _ _ _ states => states.map (List.map AgentState.threadId)
  | _ => none

/-- The thread ids of an activity: its own, those of its agent and those of its details. -/
def CodexActivity.threadIds (activity : CodexActivity) :
    Option String × Option (String × List String) × Option (Option (List String)) :=
  (activity.threadId, activity.agent.map fun agent ↦ (agent.senderId, agent.receiverIds),
    activity.details.map CodexActivityDetail.threadIds)

/-- The last name of a path, whatever is above it. -/
def IsBaseName (path base : List Char) : Prop :=
  base ≠ [] ∧ (∀ c ∈ base, isSeparator c = false) ∧
    ∃ above trail, path = above ++ base ++ trail ∧
      (above = [] ∨ ∃ directories sep, isSeparator sep = true ∧ above = directories ++ [sep]) ∧
      ∀ c ∈ trail, isSeparator c = true

/-- Working directories that differ above their names. -/
def SameBelow (cwd cwd' : String) : Prop :=
  cwd = cwd' ∨ ∃ base, IsBaseName cwd.toList base ∧ IsBaseName cwd'.toList base

def SameTerminal (terminal terminal' : TerminalSnapshot) : Prop :=
  { terminal with cwd := "" } = { terminal' with cwd := "" } ∧
    SameBelow terminal.cwd terminal'.cwd

/-- The terminals of a room that do not run. -/
def closedTerminals (state : AppStoreState) (roomId : String) : List TerminalSnapshot :=
  state.terminals.filter fun terminal ↦ terminal.roomId = roomId && !terminal.running

def codexEvents : List CodexRoomEvent := values (codexRuntime state roomId).events

def codexActivities : List CodexActivity := values (codexRuntime state roomId).activities

def terminalRequests : List TerminalCommandRequest :=
  values ((state.terminalRuntimeByRoom.get roomId).getD {}).requests

def fileSaveRequests : List WorkspaceFileSaveRequest :=
  values ((state.filePanelByRoom.get roomId).getD {}).saveRequests

def browserRequests : List BrowserAccessRequest :=
  values ((state.browserByRoom.get roomId).getD {}).requests

/-- Two stores hold the same of a room but for what an archive leaves out: thread ids, blob ids,
pending requests, the directories above a working directory, and the containers of approvals,
queued turns, goals, thread graphs, handoffs and invites. -/
structure SameButOmitted (s t : AppStoreState) : Prop where
  messages : (values (s.messagesByRoom.get roomId)).map ChatMessage.withoutBlobIds =
    (values (t.messagesByRoom.get roomId)).map ChatMessage.withoutBlobIds
  chatEdits : values (s.chatEditsByRoom.get roomId) = values (t.chatEditsByRoom.get roomId)
  chatDeletes : values (s.chatDeletesByRoom.get roomId) = values (t.chatDeletesByRoom.get roomId)
  terminalRequests : ((terminalRequests s roomId).filter fun request ↦ request.status ≠ .pending) =
    (terminalRequests t roomId).filter fun request ↦ request.status ≠ .pending
  fileSaveRequests : ((fileSaveRequests s roomId).filter fun request ↦ request.status ≠ .pending) =
    (fileSaveRequests t roomId).filter fun request ↦ request.status ≠ .pending
  browserRequests : ((browserRequests s roomId).filter fun request ↦ request.status ≠ .pending) =
    (browserRequests t roomId).filter fun request ↦ request.status ≠ .pending
  codexEvents : (codexEvents s roomId).map CodexRoomEvent.withoutThread =
    (codexEvents t roomId).map CodexRoomEvent.withoutThread
  codexActivities : (codexActivities s roomId).map CodexActivity.withoutThreads =
    (codexActivities t roomId).map CodexActivity.withoutThreads
  gitWorkflowEvents : values ((gitWorkflowRuntime s roomId).workflow.getD {}).events =
    values ((gitWorkflowRuntime t roomId).workflow.getD {}).events
  githubActionsEvents : values ((gitWorkflowRuntime s roomId).actions.getD {}).events =
    values ((gitWorkflowRuntime t roomId).actions.getD {}).events
  localPreviews : values ((s.localPreviewByRoom.get roomId).getD {}).previews =
    values ((t.localPreviewByRoom.get roomId).getD {}).previews
  terminals : List.Forall₂ SameTerminal (closedTerminals s roomId) (closedTerminals t roomId)

/-- Their Codex events and activities name the same threads. -/
def SameThreads (s t : AppStoreState) : Prop :=
  (codexEvents s roomId).map CodexRoomEvent.threadId =
      (codexEvents t roomId).map CodexRoomEvent.threadId ∧
    (codexActivities s roomId).map CodexActivity.threadIds =
      (codexActivities t roomId).map CodexActivity.threadIds

/-! ### Working directories -/

@[simp] theorem components_nil : components [] = [] := by
  rw [components, List.splitOnP_nil]
  rfl

theorem components_append_cons (xs ys : List Char) {sep : Char} (hsep : isSeparator sep = true) :
    components (xs ++ sep :: ys) = components xs ++ components ys := by
  rw [components, List.splitOnP_append_cons xs ys hsep, List.filter_append]
  rfl

theorem components_of_name {base : List Char} (hne : base ≠ [])
    (hname : ∀ c ∈ base, isSeparator c = false) : components base = [base] := by
  rw [components, List.splitOnP_eq_singleton hname]
  simp [hne]

theorem components_trail (xs : List Char) {trail : List Char}
    (htrail : ∀ c ∈ trail, isSeparator c = true) : components (xs ++ trail) = components xs := by
  induction trail generalizing xs with
  | nil => rw [List.append_nil]
  | cons sep trail ih =>
    have hrest := ih [] fun c hc ↦ htrail c (List.mem_cons_of_mem _ hc)
    rw [components_append_cons _ _ (htrail sep List.mem_cons_self)]
    rw [List.nil_append, components_nil] at hrest
    rw [hrest, List.append_nil]

/-- The last component is the name, whatever is above it. -/
theorem getLast_components {path base : List Char} (h : IsBaseName path base) :
    (components path).getLast? = some base := by
  obtain ⟨hne, hname, above, trail, rfl, habove, htrail⟩ := h
  rw [components_trail _ htrail]
  rcases habove with rfl | ⟨directories, sep, hsep, rfl⟩
  · rw [List.nil_append, components_of_name hne hname]
    rfl
  · rw [List.append_assoc, List.singleton_append, components_append_cons _ _ hsep,
      components_of_name hne hname, List.getLast?_append]
    rfl

theorem sanitizeTerminal_eq {terminal terminal' : TerminalSnapshot}
    (h : SameTerminal terminal terminal') : sanitizeTerminal terminal = sanitizeTerminal terminal' := by
  obtain ⟨hrest, hcwd⟩ := h
  have hlast : (components terminal.cwd.toList).getLast? =
      (components terminal'.cwd.toList).getLast? := by
    rcases hcwd with heq | ⟨base, hbase, hbase'⟩
    · rw [heq]
    · rw [getLast_components hbase, getLast_components hbase']
  have hsame (terminal : TerminalSnapshot) (cwd : String) :
      ({ terminal with cwd, running := false } : TerminalSnapshot) =
        { ({ terminal with cwd := "" } : TerminalSnapshot) with cwd, running := false } := rfl
  unfold sanitizeTerminal
  rw [hlast, hsame terminal, hsame terminal', hrest]

/-! ### Threads -/

/-- Lists with equal images under two functions that tell the elements apart. -/
theorem eq_of_map_eq_map {α β γ : Type} {f : α → β} {g : α → γ}
    (hinj : ∀ a b, f a = f b → g a = g b → a = b) {xs ys : List α} (hf : xs.map f = ys.map f)
    (hg : xs.map g = ys.map g) : xs = ys := by
  induction xs generalizing ys with
  | nil => exact (List.map_eq_nil_iff.mp hf.symm).symm
  | cons x xs ih =>
    cases ys with
    | nil => exact (List.cons_ne_nil _ _ (List.map_eq_nil_iff.mp hf)).elim
    | cons y ys =>
      rw [List.map_cons, List.map_cons, List.cons.injEq] at hf hg
      rw [hinj x y hf.1 hg.1, ih hf.2 hg.2]

theorem CodexRoomEvent.ext_of_thread (e e' : CodexRoomEvent)
    (hrest : e.withoutThread = e'.withoutThread) (hthread : e.threadId = e'.threadId) : e = e' := by
  cases e
  cases e'
  simp only [withoutThread, mk.injEq] at hrest hthread ⊢
  grind

theorem AgentState.ext_of_thread (a a' : AgentState) (hrest : a.withoutThread = a'.withoutThread)
    (hthread : a.threadId = a'.threadId) : a = a' := by
  cases a
  cases a'
  simp only [withoutThread, mk.injEq] at hrest hthread ⊢
  exact ⟨hthread, hrest.2⟩

theorem eq_of_option_map {α β γ : Type} {f : α → β} {g : α → γ}
    (hinj : ∀ a b, f a = f b → g a = g b → a = b) {x y : Option α} (hf : x.map f = y.map f)
    (hg : x.map g = y.map g) : x = y := by
  cases x with
  | none => exact (Option.map_eq_none_iff.mp hf.symm).symm
  | some a =>
    cases y with
    | none => exact Option.map_eq_none_iff.mp hf
    | some b => rw [hinj a b (Option.some.inj hf) (Option.some.inj hg)]

theorem CodexActivityDetail.ext_of_threads (d d' : CodexActivityDetail)
    (hrest : d.withoutThreads = d'.withoutThreads) (hthreads : d.threadIds = d'.threadIds) :
    d = d' := by
  cases d with
  | agent prompt model reasoningEffort states =>
    cases d' with
    | agent prompt' model' reasoningEffort' states' =>
      simp only [withoutThreads, agent.injEq] at hrest
      obtain ⟨rfl, rfl, rfl, hstates⟩ := hrest
      have heq : states = states' := eq_of_option_map
        (fun _ _ ↦ eq_of_map_eq_map AgentState.ext_of_thread) hstates hthreads
      rw [heq]
    | _ => cases hrest
  | _ =>
    cases d' with
    | agent => cases hrest
    | _ => exact hrest

theorem ActivityAgent.ext_of_threads (a a' : ActivityAgent)
    (hrest : a.withoutThreads = a'.withoutThreads)
    (hthreads : (a.senderId, a.receiverIds) = (a'.senderId, a'.receiverIds)) : a = a' := by
  cases a
  cases a'
  simp only [withoutThreads, mk.injEq, Prod.mk.injEq] at hrest hthreads ⊢
  exact ⟨hrest.1, hthreads.1, hthreads.2⟩

theorem CodexActivity.ext_of_threads (a a' : CodexActivity)
    (hrest : a.withoutThreads = a'.withoutThreads) (hthreads : a.threadIds = a'.threadIds) :
    a = a' := by
  simp only [threadIds, Prod.mk.injEq] at hthreads
  obtain ⟨hthread, hagents, hstates⟩ := hthreads
  have hdetails : a.details = a'.details :=
    eq_of_option_map CodexActivityDetail.ext_of_threads (congrArg CodexActivity.details hrest) hstates
  have hagent : a.agent = a'.agent :=
    eq_of_option_map ActivityAgent.ext_of_threads (congrArg CodexActivity.agent hrest) hagents
  cases a
  cases a'
  simp only [withoutThreads, mk.injEq] at hrest hthread hdetails hagent ⊢
  grind

/-! ### What an archive tells -/

theorem sanitizeMessage_withoutBlobIds (message : ChatMessage ChatAttachment) :
    sanitizeMessage message.withoutBlobIds = sanitizeMessage message := by
  have hattachments : message.withoutBlobIds.attachments.map (List.map sanitizeAttachment) =
      message.attachments.map (List.map sanitizeAttachment) := by
    show (message.attachments.map _).map _ = _
    rw [Option.map_map]
    congr 1
    funext attachments
    rw [Function.comp_apply, List.map_map]
    rfl
  unfold sanitizeMessage
  rw [hattachments]
  rfl

theorem map_sanitizeMessage_eq {messages messages' : List (ChatMessage ChatAttachment)}
    (h : messages.map ChatMessage.withoutBlobIds = messages'.map ChatMessage.withoutBlobIds) :
    messages.map sanitizeMessage = messages'.map sanitizeMessage := by
  have hmap (messages : List (ChatMessage ChatAttachment)) :
      (messages.map ChatMessage.withoutBlobIds).map sanitizeMessage =
        messages.map sanitizeMessage := by
    rw [List.map_map]
    exact List.map_congr_left fun message _ ↦ sanitizeMessage_withoutBlobIds message
  rw [← hmap, h, hmap]

theorem map_sanitizeTerminal_eq {terminals terminals' : List TerminalSnapshot}
    (h : List.Forall₂ SameTerminal terminals terminals') :
    terminals.map sanitizeTerminal = terminals'.map sanitizeTerminal := by
  induction h with
  | nil => rfl
  | cons hhead _ ih => rw [List.map_cons, List.map_cons, sanitizeTerminal_eq hhead, ih]

/-- **Of what it should leave out, an archive tells the threads of the Codex events and activities,
and nothing else.** -/
theorem build_eq_iff {s t : AppStoreState} (roomName : String) (teamName : Option String)
    (exportedAt : String) (h : SameButOmitted roomId s t) :
    buildReadOnlyRoomArchive s roomId roomName teamName exportedAt =
        buildReadOnlyRoomArchive t roomId roomName teamName exportedAt ↔ SameThreads roomId s t := by
  constructor
  · intro heq
    have hevents : codexEvents s roomId = codexEvents t roomId :=
      congrArg (fun archive ↦ archive.history.codexEvents) heq
    have hactivities : codexActivities s roomId = codexActivities t roomId :=
      congrArg (fun archive ↦ archive.history.codexActivities) heq
    rw [SameThreads, hevents, hactivities]
    exact ⟨rfl, rfl⟩
  · rintro ⟨hevents, hactivities⟩
    have hevents' : codexEvents s roomId = codexEvents t roomId :=
      eq_of_map_eq_map CodexRoomEvent.ext_of_thread h.codexEvents hevents
    have hactivities' : codexActivities s roomId = codexActivities t roomId :=
      eq_of_map_eq_map CodexActivity.ext_of_threads h.codexActivities hactivities
    have hhistory : (buildReadOnlyRoomArchive s roomId roomName teamName exportedAt).history =
        (buildReadOnlyRoomArchive t roomId roomName teamName exportedAt).history := by
      simp only [buildReadOnlyRoomArchive, RoomArchiveHistory.mk.injEq, true_and]
      exact ⟨map_sanitizeMessage_eq h.messages, h.chatEdits, h.chatDeletes, h.terminalRequests,
        h.fileSaveRequests, h.browserRequests, hevents', hactivities', h.gitWorkflowEvents,
        h.githubActionsEvents, h.localPreviews, map_sanitizeTerminal_eq h.terminals⟩
    exact congrArg (fun history ↦ ({
      exportedAt
      source := { roomName, teamName := teamName.filter (· ≠ "") }
      omissions := roomArchiveOmissions
      history } : RoomArchiveBody)) hhistory

/-! ### Two stores -/

/-- A store with a message, a terminal request and a terminal. -/
def sampleStore (blobId cwd : String) (requests : List TerminalCommandRequest)
    (events : List CodexRoomEvent) : AppStoreState where
  messagesByRoom := InsertionMap.empty.set "room"
    [{ id := "message", author := "Ada", role := .human, body := "hello", time := "now"
       attachments := some [{ id := "a", name := "note.txt", type := "text/plain", size := 6
                              blobId := some blobId }] }]
  terminalRuntimeByRoom := InsertionMap.empty.set "room" { requests := some requests }
  codexRuntimeByRoom := InsertionMap.empty.set "room" { events := some events }
  terminals := [{ id := "t", roomId := "room", name := "shell", cwd, command := "sh", running := false
                  exitStatus := some 0, startedAt := "now", lines := [] }]

def sampleRequest (status : RequestStatus) : TerminalCommandRequest where
  id := "request"
  requester := "Ada"
  requesterUserId := "github:ada"
  command := "pwd"
  cwd := "/tmp"
  requestedAt := "now"
  status := status

def sampleEvent (threadId : String) : CodexRoomEvent where
  turnId := "turn"
  status := .completed
  message := "done"
  model := "gpt"
  threadId := some threadId
  host := "Ada"
  hostUserId := "github:ada"
  createdAt := "now"

def homeOf (user : String) : String := "/home/" ++ user ++ "/project"

theorem sameButOmitted_sample (blobId blobId' : String) {cwd cwd' : String}
    (hcwd : SameBelow cwd cwd') {requests requests' : List TerminalCommandRequest}
    (hrequests : (requests.filter fun request ↦ request.status ≠ .pending) =
      requests'.filter fun request ↦ request.status ≠ .pending)
    {events events' : List CodexRoomEvent}
    (hevents : events.map CodexRoomEvent.withoutThread = events'.map CodexRoomEvent.withoutThread) :
    SameButOmitted "room" (sampleStore blobId cwd requests events)
      (sampleStore blobId' cwd' requests' events') where
  messages := rfl
  chatEdits := rfl
  chatDeletes := rfl
  terminalRequests := hrequests
  fileSaveRequests := rfl
  browserRequests := rfl
  codexEvents := hevents
  codexActivities := rfl
  gitWorkflowEvents := rfl
  githubActionsEvents := rfl
  localPreviews := rfl
  terminals := .cons ⟨rfl, hcwd⟩ .nil

theorem sameBelow_home : SameBelow (homeOf "ada") (homeOf "bob") := by
  have hplain : ∀ c ∈ "project".toList, isSeparator c = false := by simp [isSeparator]
  refine .inr ⟨"project".toList, ⟨by simp, hplain, "/home/ada/".toList, [], by rfl, ?_, nofun⟩,
    ⟨by simp, hplain, "/home/bob/".toList, [], by rfl, ?_, nofun⟩⟩
  · exact .inr ⟨"/home/ada".toList, '/', by rfl, by rfl⟩
  · exact .inr ⟨"/home/bob".toList, '/', by rfl, by rfl⟩

/-- Blob ids, pending requests and directories are not told. -/
theorem build_eq_sample :
    buildReadOnlyRoomArchive (sampleStore "blob-1" (homeOf "ada") [] [sampleEvent "thread"]) "room"
        "Room" none "now" =
      buildReadOnlyRoomArchive (sampleStore "blob-2" (homeOf "bob") [sampleRequest .pending]
        [sampleEvent "thread"]) "room" "Room" none "now" :=
  (build_eq_iff "room" "Room" none "now"
    (sameButOmitted_sample "blob-1" "blob-2" sameBelow_home (by decide) rfl)).mpr ⟨rfl, rfl⟩

/-- The thread of an event is. -/
theorem not_build_eq_threads :
    SameButOmitted "room" (sampleStore "blob" (homeOf "ada") [] [sampleEvent "thread-1"])
        (sampleStore "blob" (homeOf "ada") [] [sampleEvent "thread-2"]) ∧
      buildReadOnlyRoomArchive (sampleStore "blob" (homeOf "ada") [] [sampleEvent "thread-1"]) "room"
          "Room" none "now" ≠
        buildReadOnlyRoomArchive (sampleStore "blob" (homeOf "ada") [] [sampleEvent "thread-2"]) "room"
          "Room" none "now" := by
  refine ⟨sameButOmitted_sample "blob" "blob" (.inl rfl) rfl rfl, fun heq ↦ ?_⟩
  have hevents : [sampleEvent "thread-1"] = [sampleEvent "thread-2"] :=
    congrArg (fun archive ↦ archive.history.codexEvents) heq
  exact absurd hevents (by decide)

end MultAIplayer.Desktop.Archive
