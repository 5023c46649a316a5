import MultAIplayer.Lib.Machine
import MultAIplayer.Native.CodexActivity

/-!
# A session of the Codex app-server

One app-server process and the turns that run on it, one after another. `run_turn` waits for the
answers to `thread/start` or `thread/resume` and to a fallback, sends `turn/start`, and then reads
in its loop until the turn ends; `run_codex_turn` puts the session back for the next turn or drops
it. Both loops read one channel of lines, and what the first sets aside the second takes first.

## What the environment decides

A step is a line of the app-server, the start of a turn, one iteration of the loop that the session
is in, a steering request, or the end of `run_codex_turn`. An iteration is told what the
cancellation flag, the budget, the registration of a server request, the writes to the process and
the clock come to, so the steps range over every timing.
-/

namespace MultAIplayer.Native

/-! ### Messages -/

inductive RpcMessage where
  | response (id : RpcId) (value : Value)
  | notification (method : String) (value : Value)
  | serverRequest (id : RpcId) (method : String) (params : Value)

def RpcMessage.isNotification : RpcMessage → Bool
  | notification _ _ => true
  | _ => false

/-- A line as `serde_json` reads it: a value, or the text of an error. -/
abbrev RpcLine := Except String Value

def classifyRpcLine : RpcLine → Except String RpcMessage
  | .error error => .error ("Invalid app-server JSON line: " ++ error)
  | .ok value =>
    match value.strAt "method", (value.get "id").bind RpcId.fromValue with
    | some method, some id => .ok (.serverRequest id method ((value.get "params").getD .null))
    | some method, none => .ok (.notification method value)
    | none, some id =>
      if (value.get "result").isSome != (value.get "error").isSome then .ok (.response id value)
      else .error "Invalid app-server response envelope"
    | none, none => .error "Invalid app-server message: expected method or id"

/-- `thread_id_from_response`. -/
def threadIdFromResponse (response : Value) (operation : String) : Except String String :=
  match ((response.pointer ["result", "thread", "id"]).bind Value.asStr).filter fun id ↦
      !id.isEmpty && id.length ≤ 512 with
  | some id => .ok id
  | none => .error (operation ++ " did not return a valid thread id")

structure RpcInbox where
  lines : List RpcLine := []
  closed : Bool := false
  deferred : List RpcMessage := []

/-- What an iteration is told of its environment. `sent` is the write that it makes, if any. -/
structure Poll where
  cancelled : Bool := false
  expired : Bool := false
  registration : Except String Unit := .ok ()
  sent : Except String Unit := .ok ()
  now : String := ""

/-- A turn of a session: its thread, and the id of its `turn/start`. -/
structure TurnName where
  threadId : String
  requestId : ℤ
  deriving DecidableEq

structure CodexTurnResult where
  threadId : Option String
  status : String
  transcript : String
  events : List String
  generatedImages : List CodexGeneratedImage
  deriving DecidableEq

def CodexTurnResult.isReusable (result : CodexTurnResult) : Bool :=
  result.status ∉ ["timeout", "disconnected", "cancelled"]

inductive SessionEvent where
  /-- A message is taken off the channel. -/
  | received (message : RpcMessage)
  /-- The response that is waited for. -/
  | answered (id : RpcId) (value : Value)
  /-- A server request that is handled while a response is waited for. -/
  | registered (id : RpcId) (method : String) (params : Value)
  /-- `turn/start` is sent. -/
  | began (turn : TurnName) (context : ActivityContext)
  /-- The loop of a turn handles a message. -/
  | handled (turn : TurnName) (now : String) (message : RpcMessage)
  | activity (turn : TurnName) (activity : CodexActivityEvent)
  | steered (id : ℤ) (value : Value)
  | resolved (id : RpcId)
  | ended (turn : TurnName) (result : CodexTurnResult)
  | failed (message : String)
  | checkedIn
  | dropped

namespace RpcInbox

variable (inbox : RpcInbox)

@[grind =] def receive : Except String RpcMessage × RpcInbox :=
  match inbox.lines with
  | line :: lines => (classifyRpcLine line, { inbox with lines })
  | [] => (.error (if inbox.closed then "App-server response channel disconnected" else "timeout"),
      inbox)

/-- The message that the loop of a turn handles next. -/
def next : Except String RpcMessage × RpcInbox :=
  match inbox.deferred with
  | message :: deferred => (.ok message, { inbox with deferred })
  | [] => inbox.receive

/-- What that takes off the channel. -/
def taken : List SessionEvent :=
  if inbox.deferred.isEmpty then (inbox.next.1.toOption.map SessionEvent.received).toList else []

/-- The first response to a request among the messages that are set aside, and the others. -/
def takeResponse (id : RpcId) : List RpcMessage → Option (Value × List RpcMessage)
  | [] => none
  | .response responseId value :: rest =>
    if responseId = id then some (value, rest)
    else (takeResponse id rest).map fun (v, others) ↦ (v, .response responseId value :: others)
  | message :: rest => (takeResponse id rest).map fun (v, others) ↦ (v, message :: others)

def defer (message : RpcMessage) : RpcInbox := { inbox with deferred := inbox.deferred ++ [message] }

/-- What an iteration of `wait_for_response_message` comes to. -/
inductive Waited where
  | waiting
  | returned (value : Value)
  | failed (error : String)

/-- An iteration of `wait_for_response_message`. -/
def waitForResponse (id : ℤ) (poll : Poll) : Waited × RpcInbox × List SessionEvent :=
  if poll.cancelled then
    (.failed "Codex turn was cancelled because the room host context changed", inbox, [])
  else
    match takeResponse (.number id) inbox.deferred with
    | some (value, deferred) =>
      (.returned value, { inbox with deferred }, [.answered (.number id) value])
    | none =>
      if poll.expired then
        (.failed ("Timed out waiting for app-server response id Number(Number(" ++ toString id ++
          "))"), inbox, [])
      else
        match inbox.receive with
        | (.ok message, rest) =>
          match message with
          | .response responseId value =>
            if responseId = .number id then
              (.returned value, rest, [.received message, .answered responseId value])
            else (.waiting, rest.defer message, [.received message])
          | .serverRequest requestId method params =>
            (match poll.registration with
              | .ok () => .waiting
              | .error error => .failed error,
              rest, [.received message, .registered requestId method params])
          | .notification _ _ => (.waiting, rest.defer message, [.received message])
        | (.error error, rest) =>
          (if error = "timeout" then .waiting else .failed error, rest, [])

end RpcInbox

/-! ### The loop of a turn -/

structure TurnLoop where
  name : TurnName
  context : ActivityContext
  events : List String
  transcript : String := ""
  activityStartedAt : InsertionMap String String := .empty
  generatedImages : List CodexGeneratedImage := []
  /-- The turn id that steering requests are sent for. -/
  activeTurnId : Option String := none
  /-- The steering requests that wait for their answers. -/
  steeringResponses : List ℤ := []

def maxGeneratedImages : ℕ := 5

/-- What a message of the loop comes to: the loop goes on, or it breaks with a status. -/
inductive Handled where
  | goesOn (loop : TurnLoop) (events : List SessionEvent)
  | breaks (loop : TurnLoop) (status : String) (events : List SessionEvent)

/-- The events that a message causes. -/
def Handled.events : Handled → List SessionEvent
  | goesOn _ events | breaks _ _ events => events

/-- The status that a notification of `turn/completed` carries. -/
def completedStatus (value : Value) : String :=
  ((value.pointer ["params", "turn", "status"]).bind Value.asStr).getD "completed"

/-- Whether a notification may add to the transcript. -/
def isTextMethod (method : String) : Bool :=
  containsText method "agentMessage" || containsText method "message"

namespace TurnLoop

variable (render : Value → String) (loop : TurnLoop)

def note (event : String) : TurnLoop := { loop with events := loop.events ++ [event] }

def result (status : String) : CodexTurnResult :=
  { threadId := some loop.name.threadId, status, transcript := loop.transcript
    events := loop.events, generatedImages := loop.generatedImages }

def handleResponse (id : RpcId) (value : Value) : Handled :=
  if id = .number loop.name.requestId then
    let acknowledged := loop.note "turn/start acknowledged"
    if (value.get "error").isSome then
      .breaks (acknowledged.note "turn/start failed") "error" []
    else
      match (value.pointer ["result", "turn", "id"]).bind Value.asStr with
      | none => .breaks (acknowledged.note "turn/start omitted the active turn id") "error" []
      | some turnId => .goesOn { acknowledged with activeTurnId := some turnId } []
  else
    match id with
    | .number n =>
      if n ∈ loop.steeringResponses then
        .goesOn { loop with steeringResponses := loop.steeringResponses.erase n }
          [.steered n value]
      else .goesOn loop []
    | .string _ => .goesOn loop []

def handleServerRequest (method : String) (registration : Except String Unit) : Handled :=
  match registration with
  | .ok () => .goesOn (loop.note method) []
  | .error error =>
    .breaks (loop.note (method ++ ": request handling failed: " ++ error)) "error" []

/-- The images after a notification. -/
@[grind =] def images (method : String) (value : Value) : List CodexGeneratedImage :=
  if method = "item/completed" ∧ loop.generatedImages.length < maxGeneratedImages then
    loop.generatedImages ++ (projectGeneratedImage value).toList
  else loop.generatedImages

/-- The transcript after a notification. -/
def text (method : String) (value : Value) : String :=
  if isTextMethod method then loop.transcript ++ (extractTextDelta value).getD ""
  else loop.transcript

def resolvedRequest (method : String) (value : Value) : List SessionEvent :=
  if method = "serverRequest/resolved" then
    (((value.pointer ["params", "requestId"]).bind RpcId.fromValue).map SessionEvent.resolved).toList
  else []

/-- The loop after a notification, with the activity that is emitted. -/
def noted (method : String) (value : Value) (now : String) :
    TurnLoop × Option CodexActivityEvent :=
  let projected := projectCodexActivity render loop.context method value now loop.activityStartedAt
  ({ loop with
      generatedImages := loop.images method value
      activityStartedAt := (projected.map Prod.snd).getD loop.activityStartedAt
      transcript := loop.text method value
      events := loop.events ++ [method] },
    projected.map Prod.fst)

def handleNotification (method : String) (value : Value) (now : String) : Handled :=
  let (loop', activity) := loop.noted render method value now
  let events := (activity.map (SessionEvent.activity loop.name)).toList ++
    resolvedRequest method value
  if method = "turn/completed" then .breaks loop' (completedStatus value) events
  else .goesOn loop' events

def handle (message : RpcMessage) (poll : Poll) : Handled :=
  match message with
  | .response id value => loop.handleResponse id value
  | .serverRequest _ method _ => loop.handleServerRequest method poll.registration
  | .notification method value => loop.handleNotification render method value poll.now

end TurnLoop

/-! ### The session -/

/-- The arguments of `run_turn` that the session's behaviour depends on. -/
structure TurnArguments where
  previousThreadId : Option String := none
  context : ActivityContext

/-- Where a session is. `ended` is between `run_turn` and the end of `run_codex_turn`. -/
inductive SessionPhase where
  | initializing
  | ready
  | startingThread (arguments : TurnArguments) (id : ℤ)
  | startingFallback (arguments : TurnArguments) (events : List String) (id : ℤ)
  | running (loop : TurnLoop)
  | ended (result : CodexTurnResult)
  | dropped

structure CodexSession where
  inbox : RpcInbox := {}
  nextId : ℤ := 2
  phase : SessionPhase := .initializing

inductive SessionAction where
  /-- The app-server writes a line. -/
  | emit (line : RpcLine)
  /-- The app-server closes its output. -/
  | disconnect
  /-- `run_turn`, up to its first request; the write may fail. -/
  | begin (arguments : TurnArguments) (sent : Except String Unit)
  /-- One iteration of the loop that the session is in. -/
  | iterate (poll : Poll)
  /-- A steering request for the active turn. -/
  | steer (id : ℤ)
  /-- `run_codex_turn` after `run_turn`: whether the process is alive and the lease active. -/
  | checkIn (alive active : Bool)

namespace CodexSession

variable (render : Value → String) (s : CodexSession)

/-- `run_turn` or the start of the session returns an error: the session is dropped. -/
def fail (message : String) : CodexSession × List SessionEvent :=
  ({ s with phase := .dropped }, [.failed message])

/-- A request is sent under the next id. -/
@[grind =]
def request (sent : Except String Unit) (next : ℤ → SessionPhase) (events : ℤ → List SessionEvent) :
    CodexSession × List SessionEvent :=
  let allocated := { s with nextId := s.nextId + 1 }
  match sent with
  | .ok () => ({ allocated with phase := next s.nextId }, events s.nextId)
  | .error error => allocated.fail error

/-- `turn/start` in a thread. -/
def startTurn (arguments : TurnArguments) (events : List String) (threadId : String)
    (sent : Except String Unit) : CodexSession × List SessionEvent :=
  let operation := if arguments.previousThreadId = some threadId then "thread/resume: "
    else "thread/start: "
  s.request sent
    (fun id ↦ .running { name := { threadId, requestId := id }, context := arguments.context
                         events := events ++ [operation ++ threadId] })
    (fun id ↦ [.began { threadId, requestId := id } arguments.context])

/-- The response to `thread/start` or `thread/resume`. -/
def threadStarted (arguments : TurnArguments) (response : Value) (sent : Except String Unit) :
    CodexSession × List SessionEvent :=
  match threadIdFromResponse response "thread start/resume" with
  | .ok threadId => s.startTurn arguments [] threadId sent
  | .error error =>
    match arguments.previousThreadId with
    | none => s.fail error
    | some previous =>
      s.request sent (.startingFallback arguments
        ["thread/resume failed; starting a new thread instead of " ++ previous ++ "."])
        fun _ ↦ []

/-- The check that `wait_for_response` adds. -/
def checkResponse (id : ℤ) (response : Value) : Except String Value :=
  if (response.get "error").isSome then
    .error ("App-server request Number(Number(" ++ toString id ++ ")) failed")
  else .ok response

/-- The response to the fallback's `thread/start`. -/
def fallbackStarted (arguments : TurnArguments) (events : List String) (id : ℤ) (response : Value)
    (sent : Except String Unit) : CodexSession × List SessionEvent :=
  match (checkResponse id response).bind fun response ↦
      threadIdFromResponse response "thread/start fallback" with
  | .ok threadId => s.startTurn arguments events threadId sent
  | .error error => s.fail error

/-- The response to `initialize`. -/
def initialized (response : Value) (sent : Except String Unit) :
    CodexSession × List SessionEvent :=
  match checkResponse 1 response, sent with
  | .error error, _ => s.fail error
  | .ok _, .error error => s.fail error
  | .ok _, .ok () => ({ s with phase := .ready }, [])

/-- An iteration of the wait for a response, with what its caller does with the response. -/
def wait (id : ℤ) (poll : Poll)
    (returned : CodexSession → Value → CodexSession × List SessionEvent) :
    CodexSession × List SessionEvent :=
  match s.inbox.waitForResponse id poll with
  | (.waiting, inbox, events) => ({ s with inbox }, events)
  | (.failed error, inbox, events) =>
    let (s', failure) := { s with inbox }.fail error
    (s', events ++ failure)
  | (.returned value, inbox, events) =>
    let (s', rest) := returned { s with inbox } value
    (s', events ++ rest)

/-- The loop of a turn breaks. -/
def endTurn (loop : TurnLoop) (status : String) : CodexSession × List SessionEvent :=
  ({ s with phase := .ended (loop.result status) }, [.ended loop.name (loop.result status)])

/-- The loop of a turn handles a message. -/
def handle (loop : TurnLoop) (message : RpcMessage) (poll : Poll) :
    CodexSession × List SessionEvent :=
  let handled : SessionEvent := .handled loop.name poll.now message
  match loop.handle render message poll with
  | .goesOn loop' events => ({ s with phase := .running loop' }, handled :: events)
  | .breaks loop' status events =>
    let (s', ended) := s.endTurn loop' status
    (s', handled :: events ++ ended)

/-- An iteration of the loop of a turn. -/
def turnStep (loop : TurnLoop) (poll : Poll) : CodexSession × List SessionEvent :=
  if poll.cancelled then s.endTurn loop "cancelled"
  else if poll.expired then s.endTurn loop "timeout"
  else
    let s' := { s with inbox := s.inbox.next.2 }
    match s.inbox.next.1 with
    | .ok message =>
      let (s'', events) := s'.handle render loop message poll
      (s'', s.inbox.taken ++ events)
    | .error error =>
      if error = "timeout" then (s', [])
      else s'.endTurn (loop.note error) "disconnected"

def iterate (poll : Poll) : CodexSession × List SessionEvent :=
  match s.phase with
  | .initializing => s.wait 1 poll fun s value ↦ s.initialized value poll.sent
  | .startingThread arguments id =>
    s.wait id poll fun s value ↦ s.threadStarted arguments value poll.sent
  | .startingFallback arguments events id =>
    s.wait id poll fun s value ↦ s.fallbackStarted arguments events id value poll.sent
  | .running loop => s.turnStep render loop poll
  | .ready | .ended _ | .dropped => (s, [])

def begin (arguments : TurnArguments) (sent : Except String Unit) :
    CodexSession × List SessionEvent :=
  match s.phase with
  | .ready => s.request sent (.startingThread arguments) fun _ ↦ []
  | _ => (s, [])

/-- A steering request is sent only for a turn that is registered as active. -/
def steer (id : ℤ) : CodexSession × List SessionEvent :=
  match s.phase with
  | .running loop =>
    if loop.activeTurnId.isSome then
      ({ s with phase :=
          .running { loop with steeringResponses := loop.steeringResponses ++ [id] } }, [])
    else (s, [])
  | _ => (s, [])

def checkIn (alive active : Bool) : CodexSession × List SessionEvent :=
  match s.phase with
  | .ended result =>
    if result.isReusable && alive && active then ({ s with phase := .ready }, [.checkedIn])
    else ({ s with phase := .dropped }, [.dropped])
  | _ => (s, [])

@[grind =] def step (s : CodexSession) : SessionAction → CodexSession × List SessionEvent
  | .emit line => ({ s with inbox := { s.inbox with lines := s.inbox.lines ++ [line] } }, [])
  | .disconnect => ({ s with inbox := { s.inbox with closed := true } }, [])
  | .begin arguments sent => s.begin arguments sent
  | .iterate poll => s.iterate render poll
  | .steer id => s.steer id
  | .checkIn alive active => s.checkIn alive active

end CodexSession

end MultAIplayer.Native
