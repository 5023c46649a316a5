import MultAIplayer.Lib.History
import MultAIplayer.Native.CodexRequests

/-!
# Answers to the Codex app-server

The table of requests is shared by the sessions that register, by timers, by cancellations and by
the commands of the web view that answer. `CodexAnswers.step` takes one of them through one lock at
a time; `.confirmProject` and `.closeProject` are the other users of the one native confirmation.

`AnswerContract` is what each event owes to those before it, and `codex_answers` says that every
event of every run has paid, that a registered request is closed at most once, and exactly when it
is not open any more, and that a session never has more than 64 open.
-/

namespace MultAIplayer.Native

open History

/-- Where a suspended command is. -/
inductive CodexCall where
  | preparing (request : RespondCodexServerRequest)
  | confirming (prepared : PreparedCodexServerResponse) (binding : CodexConfirmationBinding)
  | asking (prepared : PreparedCodexServerResponse) (binding : CodexConfirmationBinding)
  | finishing (prepared : PreparedCodexServerResponse)
  | rechecking (prepared : PreparedCodexServerResponse)
  | answering (prepared : PreparedCodexServerResponse)
  | askingProject (binding : CodexConfirmationBinding)

/-- What a command shows a dialog about. -/
def CodexCall.asks : CodexCall → Option CodexConfirmationBinding
  | asking _ binding | askingProject binding => some binding
  | _ => none

structure CodexAnswers where
  requests : CodexRpcState := {}
  authorization : CodexAuthorizationState := {}
  calls : InsertionMap ℕ CodexCall := .empty

inductive CodexAction where
  /-- A sweep, which all but the cancellations begin with. -/
  | expire (now : ℕ)
  | register (context : RpcRequestContext) (id : RpcId) (method : String) (params : Value)
      (within : PathWithin) (now : ℕ)
  | resolve (sessionId : ℕ) (id : RpcId) (found : String)
  | cancelRoom (roomId message : String)
  | cancelSession (sessionId : ℕ) (message : String)
  /-- `respond_codex_server_request`. -/
  | respond (call : ℕ) (request : RespondCodexServerRequest) (now : ℕ)
  | prepare (call : ℕ) (within : PathWithin)
  | openDialog (call : ℕ)
  | closeDialog (call : ℕ) (result : Except String Bool)
  /-- `finish_response`. -/
  | finish (call : ℕ) (now : ℕ)
  | recheck (call : ℕ) (within : PathWithin)
  | answer (call : ℕ)
  /-- The confirmation of a project root. -/
  | confirmProject (call : ℕ) (roomId canonicalRoot sandboxMode : String) (networkAccess : Bool)
  | closeProject (call : ℕ) (approved : Bool)

inductive CodexAnswer where
  /-- What `finish_response` sends for a command. -/
  | decided (call : ℕ) (field : ResponseField) (value : Value)
  /-- The error of `expire_due`. -/
  | expired (now : ℕ)
  /-- The error of a cancellation. -/
  | cancelled (message : String)

inductive CodexEvent where
  | registered (key : String) (request : PendingServerRequest)
  /-- An answer at once, for a request that is not registered. -/
  | refused (context : RpcRequestContext) (id : RpcId) (code : ℤ) (message : String)
  /-- An answer to a registered request is sent. -/
  | answered (key : String) (request : PendingServerRequest) (answer : CodexAnswer)
  | resolved (key : String)
  | swept (now : ℕ)
  | roomCancelled (roomId : String)
  | sessionEnded (sessionId : ℕ)
  /-- A dialog opens. -/
  | begun (call : ℕ) (binding : CodexConfirmationBinding)
  /-- A confirmation is consumed. -/
  | confirmed (call : ℕ) (binding : CodexConfirmationBinding)
  | dismissed (call : ℕ) (binding : CodexConfirmationBinding) (message : String)
  /-- The request of a confirmed answer is still there, and permitted. -/
  | rechecked (call : ℕ) (key : String) (within : PathWithin)
  | failed (call : ℕ) (message : String)

namespace CodexAnswers

variable (s : CodexAnswers) (checks : RequestChecks)

def finished (call : ℕ) : CodexAnswers := { s with calls := s.calls.delete call }

/-- A command is suspended, or goes on to its next step. -/
def suspended (call : ℕ) (at_ : CodexCall) : CodexAnswers :=
  { s with calls := s.calls.set call at_ }

def fail (call : ℕ) (message : String) : CodexAnswers × List CodexEvent :=
  (s.finished call, [.failed call message])

/-- The requests that meet a condition are taken out and answered. -/
def close (p : PendingServerRequest → Bool) (reply : CodexAnswer) (marker : CodexEvent) :
    CodexAnswers × List CodexEvent :=
  let (removed, requests) := s.requests.cancelWhere p
  ({ s with requests }, removed.map (fun e ↦ .answered e.1 e.2 reply) ++ [marker])

/-- `expire_due`. -/
def expireDue (now : ℕ) : CodexAnswers × List CodexEvent :=
  s.close (fun request ↦ request.expiresAt ≤ now) (.expired now) (.swept now)

def register (context : RpcRequestContext) (id : RpcId) (method : String) (params : Value)
    (within : PathWithin) (now : ℕ) : CodexAnswers × List CodexEvent :=
  match s.requests.register checks within context id method params now with
  | .error (code, message) => (s, [.refused context id code message])
  | .ok (key, request, requests) => ({ s with requests }, [.registered key request])

def resolve (sessionId : ℕ) (id : RpcId) (found : String) : CodexAnswers × List CodexEvent :=
  match s.requests.removeResolved sessionId id found with
  | none => (s, [])
  | some requests => ({ s with requests }, [.resolved found])

/-- `prepare_response` begins with a sweep. -/
def respond (call : ℕ) (request : RespondCodexServerRequest) (now : ℕ) :
    CodexAnswers × List CodexEvent :=
  ((s.expireDue now).1.suspended call (.preparing request), (s.expireDue now).2)

def prepare (call : ℕ) (within : PathWithin) : CodexAnswers × List CodexEvent :=
  match s.calls.get call with
  | some (.preparing request) =>
    match s.requests.prepareResponse checks within request with
    | .error message => s.fail call message
    | .ok prepared =>
      match prepared.confirmation with
      | some binding => (s.suspended call (.confirming prepared binding), [])
      | none => (s.suspended call (.finishing prepared), [])
  | _ => (s, [])

def openDialog (call : ℕ) : CodexAnswers × List CodexEvent :=
  match s.calls.get call with
  | some (.confirming prepared binding) =>
    match s.authorization.beginConfirmation binding with
    | .error message => s.fail call message
    | .ok authorization =>
      ({ s with authorization }.suspended call (.asking prepared binding), [.begun call binding])
  | _ => (s, [])

def closeDialog (call : ℕ) (result : Except String Bool) : CodexAnswers × List CodexEvent :=
  match s.calls.get call with
  | some (.asking prepared binding) =>
    match s.authorization.finishConfirmation binding with
    | .error message => s.fail call message
    | .ok authorization =>
      let closed := { s with authorization }
      match result with
      | .error error => (closed.finished call,
          [.dismissed call binding ("Native Codex request confirmation failed: " ++ error)])
      | .ok false => (closed.finished call,
          [.dismissed call binding
            "Codex request was not approved in the native confirmation dialog"])
      | .ok true => (closed.suspended call (.finishing prepared), [.confirmed call binding])
  | _ => (s, [])

/-- `finish_response` begins with a sweep. -/
def finish (call : ℕ) (now : ℕ) : CodexAnswers × List CodexEvent :=
  match s.calls.get call with
  | some (.finishing prepared) =>
    ((s.expireDue now).1.suspended call (.rechecking prepared), (s.expireDue now).2)
  | _ => (s, [])

def recheck (call : ℕ) (within : PathWithin) : CodexAnswers × List CodexEvent :=
  match s.calls.get call with
  | some (.rechecking prepared) =>
    match s.requests.recheckResponse within prepared with
    | .error message => s.fail call message
    | .ok () =>
      (s.suspended call (.answering prepared),
        if prepared.confirmation.isSome then [.rechecked call prepared.requestKey within] else [])
  | _ => (s, [])

@[grind =] def answer (call : ℕ) : CodexAnswers × List CodexEvent :=
  match s.calls.get call with
  | some (.answering prepared) =>
    match s.requests.takePending prepared.requestKey with
    | .error message => s.fail call message
    | .ok (request, requests) =>
      ({ s with requests }.finished call,
        [.answered prepared.requestKey request
          (.decided call prepared.responseField prepared.responseValue)])
  | _ => (s, [])

def confirmProject (call : ℕ) (binding : CodexConfirmationBinding) :
    CodexAnswers × List CodexEvent :=
  match s.authorization.beginConfirmation binding with
  | .error message => (s, [.failed call message])
  | .ok authorization =>
    ({ s with authorization }.suspended call (.askingProject binding), [.begun call binding])

def closeProject (call : ℕ) (approved : Bool) : CodexAnswers × List CodexEvent :=
  match s.calls.get call with
  | some (.askingProject binding) =>
    match s.authorization.finishConfirmation binding with
    | .error message => s.fail call message
    | .ok authorization =>
      ({ s with authorization }.finished call,
        [if approved then .confirmed call binding else .dismissed call binding
          "Codex project access was denied in the native confirmation dialog"])
  | _ => (s, [])

/-- One step of the process. A call is one of its own: it begins where none of its number is. -/
@[grind =] def step (action : CodexAction) : CodexAnswers × List CodexEvent :=
  match action with
  | .expire now => s.expireDue now
  | .register context id method params within now =>
    s.register checks context id method params within now
  | .resolve sessionId id found => s.resolve sessionId id found
  | .cancelRoom roomId message =>
    s.close (fun request ↦ request.roomId = roomId) (.cancelled message) (.roomCancelled roomId)
  | .cancelSession sessionId message =>
    s.close (fun request ↦ request.sessionId = sessionId) (.cancelled message)
      (.sessionEnded sessionId)
  | .respond call request now => if s.calls.has call then (s, []) else s.respond call request now
  | .prepare call within => s.prepare checks call within
  | .openDialog call => s.openDialog call
  | .closeDialog call result => s.closeDialog call result
  | .finish call now => s.finish call now
  | .recheck call within => s.recheck call within
  | .answer call => s.answer call
  | .confirmProject call roomId canonicalRoot sandboxMode networkAccess =>
    if s.calls.has call then (s, [])
    else s.confirmProject call (.projectRoot roomId canonicalRoot sandboxMode networkAccess)
  | .closeProject call approved => s.closeProject call approved

end CodexAnswers

/-! ### The contract -/

namespace CodexEvent

/-- The request of a key is answered, or resolved elsewhere. -/
@[grind =] def closes (key : String) : CodexEvent → Bool
  | answered key' _ _ | resolved key' => key' = key
  | _ => false

/-- The confirmation that may be open opens or closes. -/
def turnsDialog : CodexEvent → Bool
  | begun _ _ | confirmed _ _ | dismissed _ _ _ => true
  | _ => false

end CodexEvent

/-- A request is registered, and neither answered nor resolved since. -/
def Open (log : List CodexEvent) (key : String) (request : PendingServerRequest) : Prop :=
  Since (.registered key request) (fun back ↦ ∀ e ∈ back, e.closes key = false) log

/-- A confirmation for a request of that key, room and method was consumed, a sweep has left the
request alone since, and its permission was checked again. -/
def AnswerConfirmed (log : List CodexEvent) (call : ℕ) (key : String)
    (request : PendingServerRequest) : Prop :=
  ∃ now within, now < request.expiresAt ∧
    Since (.confirmed call (.serverRequest key request.roomId request.method))
      (fun back ↦ .swept now ∈ back ∧ .rechecked call key within ∈ back) log

/-- What an event owes to the events before it. -/
def AnswerContract (before : List CodexEvent) : CodexEvent → Prop
  | .registered key _ => ∀ request, .registered key request ∉ before
  | .answered key request answer => Open before key request ∧
    match answer with
    | .decided call field value =>
      PositiveApproval field request.method value → AnswerConfirmed before call key request
    | .expired now => request.expiresAt ≤ now
    | .cancelled _ => True
  | .resolved key => ∃ request, Open before key request
  | .swept now => ∀ key request, Open before key request → now < request.expiresAt
  | .roomCancelled roomId => ∀ key request, Open before key request → request.roomId ≠ roomId
  | .sessionEnded sessionId =>
    ∀ key request, Open before key request → request.sessionId ≠ sessionId
  | .confirmed call binding =>
    Since (.begun call binding) (fun back ↦ ∀ e ∈ back, e.turnsDialog = false) before
  | .rechecked _ key within => ∀ request, Open before key request →
      enforcedPermissionDenial within request.method request.originalParams
        request.approvedProjectRoot = none
  | _ => True

end MultAIplayer.Native
