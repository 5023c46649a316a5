import MultAIplayer.Lib.IsoDate
import MultAIplayer.Native.CodexActivity
import MultAIplayer.Native.ValueSchemas

/-!
# Activities on the wire

What serde writes of an activity, the payload that the web view publishes of it, and the schema
`CodexActivityPlaintextPayload` that receivers and the saved history check it against.

The projection bounds texts by characters and the schema by UTF-16 units, with limits of their own:
whether a text passes is a matter of the units of its first characters (`Narrow`).
-/

namespace MultAIplayer.Native

open Value

/-! ### What is sent -/

def stringValues (texts : List String) : Value := .array (texts.map .string)

@[grind =] def CodexFileChange.toValue (change : CodexFileChange) : Value :=
  record [("path", some (.string change.path)), ("action", some (.string change.action)),
    ("diff", change.diff.map .string)]

@[grind =] def CodexAgentState.toValue (state : CodexAgentState) : Value :=
  record [("threadId", some (.string state.threadId)), ("status", some (.string state.status)),
    ("message", state.message.map .string)]

@[grind =] def CodexAgentActivity.toValue (agent : CodexAgentActivity) : Value :=
  record [("action", some (.string agent.action)), ("senderId", some (.string agent.senderId)),
    ("receiverIds", some (stringValues agent.receiverIds))]

@[grind =] def CodexActivityDetails.toValue : CodexActivityDetails → Value
  | reasoning summaries rawContent =>
    record [("type", some (.string "reasoning")), ("summaries", some (stringValues summaries)),
      ("rawContent", rawContent.map stringValues)]
  | command text output exitCode durationMs =>
    record [("type", some (.string "command")), ("command", some (.string text)),
      ("output", output.map .string), ("exitCode", exitCode.map .integer),
      ("durationMs", durationMs.map .integer)]
  | fileChange changes =>
    record [("type", some (.string "file_change")),
      ("changes", some (.array (changes.map CodexFileChange.toValue)))]
  | tool name server arguments result error durationMs =>
    record [("type", some (.string "tool")), ("name", some (.string name)),
      ("server", server.map .string), ("arguments", arguments.map .string),
      ("result", result.map .string), ("error", error.map .string),
      ("durationMs", durationMs.map .integer)]
  | webSearch action query url pattern =>
    record [("type", some (.string "web_search")), ("action", action.map .string),
      ("query", query.map .string), ("url", url.map .string), ("pattern", pattern.map .string)]
  | imageGeneration prompt =>
    record [("type", some (.string "image_generation")), ("prompt", prompt.map .string)]
  | agent prompt model reasoningEffort states =>
    record [("type", some (.string "agent")), ("prompt", prompt.map .string),
      ("model", model.map .string), ("reasoningEffort", reasoningEffort.map .string),
      ("states", states.map fun states ↦ .array (states.map CodexAgentState.toValue))]

@[grind =] def CodexActivityEvent.toValue (event : CodexActivityEvent) : Value :=
  record [("roomId", some (.string event.roomId)), ("activityId", some (.string event.activityId)),
    ("turnId", some (.string event.turnId)), ("itemId", some (.string event.itemId)),
    ("threadId", event.threadId.map .string), ("kind", some (.string event.kind)),
    ("status", some (.string event.status)), ("title", some (.string event.title)),
    ("details", event.details.map CodexActivityDetails.toValue),
    ("agent", event.agent.map CodexAgentActivity.toValue),
    ("startedAt", some (.string event.startedAt)), ("updatedAt", some (.string event.updatedAt))]

/-- The user of the host. -/
structure HostUser where
  name : String
  id : String

/-- `publishCodexActivity`, of an event without its room. What is spread last stands first, where
it is found. -/
def publishCodexActivity (host : HostUser) (event : Value) : Value :=
  .object (((event.asObject.getD []).filter fun field ↦ field.1 ≠ "roomId") ++
    [("eventType", .string "codex.activity"), ("host", .string host.name),
      ("hostUserId", .string host.id)])

/-! ### What is accepted -/

namespace PlaintextEvents

def maxEnvelopeIdChars : ℕ := 160
def maxUserIdChars : ℕ := 160
def maxDisplayNameChars : ℕ := 120
def maxShortTextChars : ℕ := 512
def maxMediumTextChars : ℕ := 4096
def maxLongTextChars : ℕ := 120000
def maxProjectPathChars : ℕ := 2048
def maxUrlChars : ℕ := 2048
def maxCodexModelChars : ℕ := 80
def maxCodexThreadIdChars : ℕ := 512

def codexReasoningEffortIds : List String :=
  ["none", "minimal", "low", "medium", "high", "xhigh", "max"]

def fileChange (v : Value) : Bool :=
  requiredField "path" (stringBetween 1 maxProjectPathChars) v &&
    requiredField "action" (oneOf ["add", "delete", "update"]) v &&
      optionalField "diff" (stringBetween 0 maxLongTextChars) v

def agentState (v : Value) : Bool :=
  requiredField "threadId" (stringBetween 1 maxCodexThreadIdChars) v &&
    requiredField "status" (stringBetween 1 maxShortTextChars) v &&
      optionalField "message" (stringBetween 0 maxMediumTextChars) v

/-- `CodexActivityDetail`, a union over `type`. -/
@[grind =] def codexActivityDetail (v : Value) : Bool :=
  match v.strAt "type" with
  | some "reasoning" =>
    requiredField "summaries" (arrayUpTo 12 (stringBetween 1 maxMediumTextChars)) v &&
      optionalField "rawContent" (arrayUpTo 12 (stringBetween 1 maxMediumTextChars)) v
  | some "command" =>
    requiredField "command" (stringBetween 1 maxLongTextChars) v &&
      optionalField "output" (stringBetween 0 maxLongTextChars) v && optionalField "exitCode" safeInteger v &&
        optionalField "durationMs" safeNatural v
  | some "file_change" => requiredField "changes" (arrayUpTo 64 fileChange) v
  | some "tool" =>
    requiredField "name" (stringBetween 1 maxShortTextChars) v &&
      optionalField "server" (stringBetween 1 maxShortTextChars) v &&
        optionalField "arguments" (stringBetween 0 maxLongTextChars) v &&
          optionalField "result" (stringBetween 0 maxLongTextChars) v &&
            optionalField "error" (stringBetween 0 maxMediumTextChars) v &&
              optionalField "durationMs" safeNatural v
  | some "web_search" =>
    optionalField "action" (oneOf ["search", "open_page", "find_in_page", "other"]) v &&
      optionalField "query" (stringBetween 0 maxMediumTextChars) v &&
        optionalField "url" (stringBetween 0 maxUrlChars) v &&
          optionalField "pattern" (stringBetween 0 maxMediumTextChars) v
  | some "image_generation" => optionalField "prompt" (stringBetween 0 maxLongTextChars) v
  | some "agent" =>
    optionalField "prompt" (stringBetween 0 maxLongTextChars) v &&
      optionalField "model" (stringBetween 0 maxCodexModelChars) v &&
        optionalField "reasoningEffort" (oneOf codexReasoningEffortIds) v &&
          optionalField "states" (arrayUpTo 16 agentState) v
  | _ => false

def agentActivity (v : Value) : Bool :=
  requiredField "action" (oneOf ["spawn", "send", "resume", "wait", "close"]) v &&
    requiredField "senderId" (stringBetween 1 maxCodexThreadIdChars) v &&
      requiredField "receiverIds" (arrayUpTo 16 (stringBetween 1 maxCodexThreadIdChars)) v

/-- `z.string().datetime()`. -/
def datetime : Value → Bool
  | .string s => (IsoDate.parse s).isSome
  | _ => false

def activityKinds : List String :=
  ["command", "file_change", "tool", "web_search", "image_generation", "agent", "review", "hook",
    "reasoning", "other"]

/-- `CodexActivityPlaintextPayload`. -/
def codexActivity (v : Value) : Bool :=
  requiredField "eventType" (oneOf ["codex.activity"]) v &&
    requiredField "activityId" (stringBetween 1 maxEnvelopeIdChars) v &&
    requiredField "turnId" (stringBetween 1 maxEnvelopeIdChars) v &&
    requiredField "itemId" (stringBetween 1 maxEnvelopeIdChars) v &&
    optionalField "threadId" (stringBetween 1 maxCodexThreadIdChars) v &&
    requiredField "kind" (oneOf activityKinds) v &&
    requiredField "status" (oneOf ["started", "running", "completed", "failed", "declined"]) v &&
    requiredField "title" (stringBetween 1 maxShortTextChars) v &&
    optionalField "details" codexActivityDetail v && optionalField "agent" agentActivity v &&
    requiredField "startedAt" datetime v && requiredField "updatedAt" datetime v &&
    requiredField "host" (stringBetween 1 maxDisplayNameChars) v &&
    requiredField "hostUserId" (stringBetween 1 maxUserIdChars) v

end PlaintextEvents

end MultAIplayer.Native
