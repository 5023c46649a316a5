import MultAIplayer.Lib.InsertionMap
import MultAIplayer.Native.Validation
import MultAIplayer.Native.Value

/-!
# What a turn shows of the app-server's notifications

A notification of an app-server comes to at most one piece of the transcript
(`extractTextDelta`), one image (`projectGeneratedImage`) and one activity
(`projectCodexActivity`). None of the three looks at the turn that the notification carries; an
activity names the turn of the client that projects it.

The text of a JSON value is a parameter, `render`: it is `serde_json::to_string`.
-/

namespace MultAIplayer.Native

def boundedText (maxChars : ℕ) (value : String) : String :=
  String.ofList (value.toList.take maxChars)

@[grind =] def boundedNonempty (maxChars : ℕ) (value : String) : Option String :=
  let text := boundedText maxChars (trim value)
  if text.isEmpty then none else some text

def boundedCodexIdentifier (value : Option String) (fallback : String) : String :=
  let safe := (((trim (value.getD fallback)).toList.filter fun c ↦
    c.isAlphanum || c = '-' || c = '_' || c = '.').take 120)
  if safe.isEmpty then fallback else String.ofList safe

/-- `str::contains`. -/
def containsText (text part : String) : Bool := text.toList.tails.any part.toList.isPrefixOf

/-! ### The transcript -/

def extractTextDelta (value : Value) : Option String :=
  (value.get "params").bind fun params ↦
    (["delta", "text", "message", "content"].findSome? params.strAt).or
      ((params.get "item").bind fun item ↦ ["text", "message", "content"].findSome? item.strAt)

/-! ### Images -/

structure CodexGeneratedImage where
  data : String
  mimeType : String
  name : String
  prompt : Option String
  deriving DecidableEq

def maxImageDataChars : ℕ := 5000000

def supportedImageExtension (mimeType : String) : Option String :=
  match mimeType with
  | "image/png" => some "png"
  | "image/jpeg" => some "jpg"
  | "image/webp" => some "webp"
  | "image/gif" => some "gif"
  | _ => none

def isBase64Payload (value : List Char) : Bool :=
  !value.isEmpty && value.all fun c ↦ c.isAlphanum || c = '+' || c = '/' || c = '='

/-- The data URL, the media type and the extension of an image result. -/
def imageData (result : String) : Option (String × String × String) :=
  let text := result.toList
  if "data:".toList.isPrefixOf text then
    let metadata := text.takeWhile fun c ↦ c != ','
    match text.drop metadata.length with
    | [] => none
    | _ :: encoded =>
      let media := metadata.drop "data:".length
      if ";base64".toList.isSuffixOf media then
        let mimeType := String.ofList (media.take (media.length - ";base64".length))
        (supportedImageExtension mimeType).bind fun extension ↦
          if isBase64Payload encoded then some (result, mimeType, extension) else none
      else none
  else if isBase64Payload text then
    some ("data:image/png;base64," ++ result, "image/png", "png")
  else none

def projectGeneratedImage (notification : Value) : Option CodexGeneratedImage :=
  ((notification.get "params").bind fun params ↦ params.get "item").bind fun item ↦
    if item.strAt "type" = some "imageGeneration" then
      ((item.strAt "result").map trim).bind fun result ↦
        if result.isEmpty || maxImageDataChars < Text.utf8Length result then none
        else
          (imageData result).map fun (data, mimeType, extension) ↦
            { data, mimeType
              name := boundedCodexIdentifier (item.strAt "id") "generated-image" ++ "." ++ extension
              prompt := (item.strAt "revisedPrompt").map (boundedText 120000) }
    else none

/-! ### Activities -/

structure CodexFileChange where
  path : String
  action : String
  diff : Option String
  deriving DecidableEq

structure CodexAgentState where
  threadId : String
  status : String
  message : Option String
  deriving DecidableEq

structure CodexAgentActivity where
  action : String
  senderId : String
  receiverIds : List String
  deriving DecidableEq

inductive CodexActivityDetails where
  | reasoning (summaries : List String) (rawContent : Option (List String))
  | command (command : String) (output : Option String) (exitCode durationMs : Option ℤ)
  | fileChange (changes : List CodexFileChange)
  | tool (name : String) (server arguments result error : Option String) (durationMs : Option ℤ)
  | webSearch (action query url pattern : Option String)
  | imageGeneration (prompt : Option String)
  | agent (prompt model reasoningEffort : Option String) (states : Option (List CodexAgentState))
  deriving DecidableEq

structure CodexActivityEvent where
  roomId : String
  activityId : String
  turnId : String
  itemId : String
  threadId : Option String
  kind : String
  status : String
  title : String
  details : Option CodexActivityDetails
  agent : Option CodexAgentActivity
  startedAt : String
  updatedAt : String
  deriving DecidableEq

def reasoningText (allowedTypes : List String) (value : Value) : Option String :=
  match value.asStr with
  | some text => boundedNonempty 4096 text
  | none =>
    (value.strAt "type").bind fun itemType ↦
      if itemType ∈ allowedTypes then (value.strAt "text").bind (boundedNonempty 4096) else none

def fileChange (change : Value) : Option CodexFileChange :=
  (change.strAt "kind").bind fun action ↦
    if action ∈ ["add", "delete", "update"] then
      ((change.strAt "path").bind (boundedNonempty 2048)).map fun path ↦
        { path, action, diff := (change.strAt "diff").map (boundedText 120000) }
    else none

def agentState (entry : String × Value) : Option CodexAgentState :=
  ((entry.2.strAt "status").bind (boundedNonempty 240)).map fun status ↦
    { threadId := boundedCodexIdentifier (some entry.1) "agent", status
      message := (entry.2.strAt "message").map (boundedText 4096) }

def webSearchAction (action : String) : String :=
  match action with
  | "openPage" | "open_page" => "open_page"
  | "findInPage" | "find_in_page" => "find_in_page"
  | "search" => "search"
  | _ => "other"

variable (render : Value → String)

def projectActivityDetails (itemType : String) (item : Value) (shareRawReasoning : Bool) :
    Option CodexActivityDetails :=
  match itemType with
  | "reasoning" =>
    let summaries := ((item.arrayAt "summary").filterMap (reasoningText ["summary_text"])).take 12
    let content :=
      ((item.arrayAt "content").filterMap (reasoningText ["reasoning_text", "text"])).take 12
    let rawContent := if shareRawReasoning && !content.isEmpty then some content else none
    if summaries.isEmpty && rawContent.isNone then none else some (.reasoning summaries rawContent)
  | "commandExecution" =>
    ((item.strAt "command").bind (boundedNonempty 120000)).map fun command ↦
      .command command ((item.strAt "aggregatedOutput").map (boundedText 120000))
        ((item.get "exitCode").bind Value.asI64) ((item.get "durationMs").bind Value.asU64)
  | "fileChange" => some (.fileChange (((item.arrayAt "changes").filterMap fileChange).take 64))
  | "mcpToolCall" | "dynamicToolCall" =>
    ((item.strAt "tool").bind (boundedNonempty 240)).map fun name ↦
      let rendered value := boundedText 120000 (render value)
      let result := ((item.get "result").or (item.get "contentItems")).filter fun value ↦
        match value with
        | .null => false
        | _ => true
      .tool name ((item.strAt "server").bind (boundedNonempty 240))
        ((item.get "arguments").map rendered) (result.map rendered)
        (((item.get "error").bind fun error ↦
          ((error.get "message").or (some error)).bind Value.asStr).map (boundedText 4096))
        ((item.get "durationMs").bind Value.asU64)
  | "webSearch" =>
    let action := item.get "action"
    some (.webSearch ((action.bind (·.strAt "type")).map webSearchAction)
      ((((action.bind (·.get "query")).or (item.get "query")).bind Value.asStr).map
        (boundedText 4096))
      ((action.bind (·.strAt "url")).map (boundedText 8192))
      ((action.bind (·.strAt "pattern")).map (boundedText 4096)))
  | "imageGeneration" =>
    some (.imageGeneration ((item.strAt "revisedPrompt").map (boundedText 120000)))
  | "collabAgentToolCall" =>
    some (.agent ((item.strAt "prompt").map (boundedText 120000))
      ((item.strAt "model").bind (boundedNonempty 240))
      ((item.strAt "reasoningEffort").filter fun effort ↦
        effort ∈ ["none", "minimal", "low", "medium", "high", "xhigh", "max"])
      (((item.get "agentsStates").bind Value.asObject).map fun states ↦
        (states.filterMap agentState).take 16))
  | _ => none

def lifecycleStatus (method : String) : Option String :=
  match method with
  | "item/started" => some "started"
  | "item/updated" => some "running"
  | "item/completed" => some "completed"
  | _ => none

def activityKind (itemType : String) : String × String :=
  match itemType with
  | "commandExecution" => ("command", "Command execution")
  | "fileChange" => ("file_change", "File change")
  | "dynamicToolCall" | "mcpToolCall" => ("tool", "Tool call")
  | "webSearch" => ("web_search", "Web search")
  | "imageGeneration" => ("image_generation", "Image generation")
  | "collabAgentToolCall" | "agentIdentity" => ("agent", "Agent activity")
  | "enteredReviewMode" | "exitedReviewMode" => ("review", "Review activity")
  | "hookPrompt" => ("hook", "Hook prompt")
  | "reasoning" => ("reasoning", "Reasoning")
  | _ => ("other", "Codex activity")

def agentAction (tool : String) : Option String :=
  match tool with
  | "spawnAgent" => some "spawn"
  | "sendInput" => some "send"
  | "resumeAgent" => some "resume"
  | "wait" => some "wait"
  | "closeAgent" => some "close"
  | _ => none

/-- The agent part of an activity; `none` where an item of an agent has no action that is known. -/
def projectAgent (itemType : String) (item : Value) : Option (Option CodexAgentActivity) :=
  if itemType = "collabAgentToolCall" then
    ((item.strAt "tool").bind agentAction).map fun action ↦ some
      { action, senderId := boundedCodexIdentifier (item.strAt "senderThreadId") "agent"
        receiverIds := (((item.arrayAt "receiverThreadIds").filterMap Value.asStr).map
          fun value ↦ boundedCodexIdentifier (some value) "agent").take 16 }
  else some none

def activityStatus (itemStatus lifecycle : String) : String :=
  match itemStatus with
  | "failed" | "error" => "failed"
  | "declined" | "denied" | "cancelled" => "declined"
  | "completed" => "completed"
  | "inProgress" | "running" => "running"
  | _ => lifecycle

/-- What a turn's activities are projected for. -/
structure ActivityContext where
  roomId : String
  clientTurnId : String
  shareRawReasoning : Bool
  deriving DecidableEq

/-- `project_codex_activity`, with the table of when each item was first seen. -/
def projectCodexActivity (context : ActivityContext) (method : String) (notification : Value)
    (now : String) (startedByItem : InsertionMap String String) :
    Option (CodexActivityEvent × InsertionMap String String) :=
  (lifecycleStatus method).bind fun lifecycle ↦
    (notification.get "params").bind fun params ↦
      (params.get "item").bind fun item ↦
        let itemId := boundedCodexIdentifier (item.strAt "id") "item"
        let itemType := (item.strAt "type").getD "other"
        (projectAgent itemType item).map fun agent ↦
          let startedAt := (startedByItem.get itemId).getD now
          ({ roomId := context.roomId
             activityId := boundedCodexIdentifier (some (context.clientTurnId ++ "-" ++ itemId))
              "activity"
             turnId := context.clientTurnId
             itemId
             threadId := (params.strAt "threadId").map fun value ↦
              boundedCodexIdentifier (some value) "thread"
             kind := (activityKind itemType).1
             status := activityStatus ((item.strAt "status").getD lifecycle) lifecycle
             title := (activityKind itemType).2
             details := projectActivityDetails render itemType item context.shareRawReasoning
             agent
             startedAt
             updatedAt := now },
           if (startedByItem.get itemId).isSome then startedByItem
           else startedByItem.set itemId now)

/-- An activity is attributed to the turn and room of the client, whatever turn the notification
carries. -/
theorem projectCodexActivity_turn {context : ActivityContext} {method now : String}
    {notification : Value} {started started' : InsertionMap String String}
    {activity : CodexActivityEvent}
    (h : projectCodexActivity render context method notification now started =
      some (activity, started')) :
    activity.turnId = context.clientTurnId ∧ activity.roomId = context.roomId := by
  simp only [projectCodexActivity, Option.bind_eq_some_iff, Option.map_eq_some_iff,
    Prod.mk.injEq] at h
  obtain ⟨lifecycle, -, params, -, item, -, agent, -, rfl, -⟩ := h
  exact ⟨rfl, rfl⟩

end MultAIplayer.Native
