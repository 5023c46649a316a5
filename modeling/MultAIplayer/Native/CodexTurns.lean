import MultAIplayer.Lib.Machine
import MultAIplayer.Native.CodexAuthorization

/-!
# Turns of Codex

`run_codex_turn` and `shutdown_codex_room` over any rooms. A turn holds a lease from its first step
to its last, so one table has both the leases and where their turns are; the sessions between turns
are in a cache. A turn is suspended at its project confirmation, at the start of its session and
while it runs, and between the tables that it locks; a shutdown between the tables that it locks.

The requests of the app-server are not here: to them a turn and a shutdown are cancellations.
-/

namespace MultAIplayer.Native

/-- Times are in seconds. -/
def codexSessionIdleTimeout : ℕ := 20 * 60

structure CodexSandboxConfig where
  sandboxMode : String
  approvalPolicy : String
  networkAccess : Bool
  deriving DecidableEq

/-- The settings of a turn, as the normalizations leave them. -/
structure CodexTurnProfile where
  model : String
  reasoningEffort : String
  serviceTier : String
  sandbox : CodexSandboxConfig
  deriving DecidableEq

/-- A turn that is asked for. `profile` is what the checks of the input, the thread id, the timeout
and the settings come to. -/
structure CodexTurnRequest where
  roomId : String
  cwd : String
  profile : Except String CodexTurnProfile

structure CodexServerKey where
  roomId : String
  cwd : String
  profile : CodexTurnProfile
  deriving DecidableEq

structure CodexServerSession where
  sessionId : ℕ
  lastUsed : ℕ
  deriving DecidableEq

/-- Where a turn is. -/
inductive TurnPhase where
  | classifying
  | confirming (root : String) (profile : CodexTurnProfile)
  | asking (root : String) (profile : CodexTurnProfile)
  | authorizing (root : String) (profile : CodexTurnProfile)
  | closing (root : String) (profile : CodexTurnProfile)
  | ready (root : String) (profile : CodexTurnProfile)
  | pruning (key : CodexServerKey)
  | checkingOut (key : CodexServerKey)
  | launching (key : CodexServerKey)
  | starting (key : CodexServerKey) (session : CodexServerSession)
  | running (key : CodexServerKey) (session : CodexServerSession)
  | checkingIn (key : CodexServerKey) (session : CodexServerSession)
  | leaving

/-- A lease, with the turn that holds it. -/
structure Turn where
  request : CodexTurnRequest
  cancelled : Bool := false
  at_ : TurnPhase := .classifying

/-- Where a shutdown is. -/
inductive ShutdownPhase where
  | revoking
  | cancelling
  | closing
  deriving DecidableEq

structure CodexTurns where
  authorization : CodexAuthorizationState := {}
  turns : InsertionMap ℕ Turn := .empty
  nextTurnLeaseId : ℕ := 1
  sessions : InsertionMap CodexServerKey CodexServerSession := .empty
  nextRpcSessionId : ℕ := 1
  shutdowns : InsertionMap ℕ (String × ShutdownPhase) := .empty

inductive TurnAction where
  /-- `CodexTurnLease::begin`. -/
  | begin (request : CodexTurnRequest)
  /-- The checks and `classify_project_root`. -/
  | classify (lease : ℕ) (fs : FileSystem)
  | openDialog (lease : ℕ)
  | closeDialog (lease : ℕ) (result : Except String Bool)
  | authorize (lease : ℕ) (fs : FileSystem)
  /-- `shutdown_codex_room_sessions` under a new authorization. -/
  | close (lease : ℕ)
  /-- The look at the cancellation before a session is taken. -/
  | check (lease : ℕ)
  | prune (lease : ℕ) (now : ℕ)
  /-- A cached session is taken, if it is alive. -/
  | checkout (lease : ℕ) (alive : Bool)
  /-- A session is started, and initializedd or not. -/
  | launch (lease : ℕ) (now : ℕ)
  | initialized (lease : ℕ) (result : Except String Unit)
  /-- `run_turn` is over. -/
  | finish (lease : ℕ) (reusable : Bool) (now : ℕ)
  | checkin (lease : ℕ)
  /-- The lease is dropped. -/
  | leave (lease : ℕ)
  /-- `shutdown_codex_room`. -/
  | shutdown (call : ℕ) (roomId : String)
  | revoke (call : ℕ)
  | cancelTurns (call : ℕ)
  | closeSessions (call : ℕ)
  /-- The other users of the one confirmation. -/
  | confirmRequest (requestKey roomId method : String)
  | closeRequest (requestKey roomId method : String)

inductive TurnEvent where
  | began (lease : ℕ) (roomId : String)
  | asked (lease : ℕ) (roomId : String)
  | authorized (lease : ℕ) (roomId : String)
  | checkedOut (lease sessionId : ℕ)
  | started (lease sessionId : ℕ)
  | checkedIn (lease sessionId : ℕ)
  | left (lease : ℕ)
  | shutdownBegan (call : ℕ) (roomId : String)
  | revoked (call : ℕ) (roomId : String)
  | turnsCancelled (roomId : String)
  | shutdownReturned (call : ℕ) (roomId : String)
  | failed (message : String)
  deriving DecidableEq

namespace CodexTurns

variable (s : CodexTurns)

/-- The turn of a lease, with where it is. -/
def turnAt (lease : ℕ) : Option (Turn × TurnPhase) :=
  (s.turns.get lease).map fun turn ↦ (turn, turn.at_)

/-- A turn goes on to its next step. -/
def moved (lease : ℕ) (turn : Turn) (at_ : TurnPhase) : CodexTurns :=
  { s with turns := s.turns.set lease { turn with at_ } }

/-- A turn returns an error. A session that it has is dropped. -/
def fail (lease : ℕ) (turn : Turn) (message : String) : CodexTurns × List TurnEvent :=
  (s.moved lease turn .leaving, [.failed message])

def begin (request : CodexTurnRequest) : CodexTurns × List TurnEvent :=
  match ensureRoomId request.roomId with
  | .error message => (s, [.failed message])
  | .ok () =>
    if s.turns.values.any fun turn ↦ turn.request.roomId = request.roomId && !turn.cancelled then
      ({ s with nextTurnLeaseId := s.nextTurnLeaseId + 1 },
        [.failed "A Codex turn is already active for this room"])
    else
      ({ s with
          turns := s.turns.set s.nextTurnLeaseId { request }
          nextTurnLeaseId := s.nextTurnLeaseId + 1 },
        [.began s.nextTurnLeaseId request.roomId])

def classify (lease : ℕ) (fs : FileSystem) : CodexTurns × List TurnEvent :=
  match s.turnAt lease with
  | some (turn, .classifying) =>
    match ensureExistingDir fs turn.request.cwd, turn.request.profile with
    | .error message, _ => s.fail lease turn message
    | _, .error message => s.fail lease turn message
    | .ok (), .ok profile =>
      match s.authorization.classifyProjectRoot fs turn.request.roomId turn.request.cwd
          profile.sandbox.sandboxMode profile.sandbox.networkAccess with
      | .error message => s.fail lease turn message
      | .ok (.alreadyAuthorized root) => (s.moved lease turn (.ready root profile), [])
      | .ok (.requiresConfirmation root) => (s.moved lease turn (.confirming root profile), [])
  | _ => (s, [])

/-- What a turn asks for. -/
def binding (turn : Turn) (root : String) (profile : CodexTurnProfile) :
    CodexConfirmationBinding :=
  .projectRoot turn.request.roomId root profile.sandbox.sandboxMode profile.sandbox.networkAccess

def openDialog (lease : ℕ) : CodexTurns × List TurnEvent :=
  match s.turnAt lease with
  | some (turn, .confirming root profile) =>
    match s.authorization.beginConfirmation (binding turn root profile) with
    | .error message => s.fail lease turn message
    | .ok authorization =>
      ({ s with authorization }.moved lease turn (.asking root profile),
        [.asked lease turn.request.roomId])
  | _ => (s, [])

def closeDialog (lease : ℕ) (result : Except String Bool) : CodexTurns × List TurnEvent :=
  match s.turnAt lease with
  | some (turn, .asking root profile) =>
    match s.authorization.finishConfirmation (binding turn root profile), result with
    | .error message, _ => s.fail lease turn message
    | .ok authorization, .error error => { s with authorization }.fail lease turn
        ("Native Codex project confirmation failed: " ++ error)
    | .ok authorization, .ok false => { s with authorization }.fail lease turn
        "Codex project access was denied in the native confirmation dialog"
    | .ok authorization, .ok true =>
      ({ s with authorization }.moved lease turn (.authorizing root profile), [])
  | _ => (s, [])

def authorize (lease : ℕ) (fs : FileSystem) : CodexTurns × List TurnEvent :=
  match s.turnAt lease with
  | some (turn, .authorizing root profile) =>
    match s.authorization.authorizeProjectRoot fs turn.request.roomId root
        profile.sandbox.sandboxMode profile.sandbox.networkAccess with
    | .error message => s.fail lease turn message
    | .ok (canonical, authorization) =>
      ({ s with authorization }.moved lease turn (.closing canonical profile),
        [.authorized lease turn.request.roomId])
  | _ => (s, [])

/-- `shutdown_codex_room_sessions`. -/
def closeRoomSessions (roomId : String) : CodexTurns :=
  { s with sessions := s.sessions.filter fun key _ ↦ key.roomId != roomId }

def close (lease : ℕ) : CodexTurns × List TurnEvent :=
  match s.turnAt lease with
  | some (turn, .closing root profile) =>
    ((s.closeRoomSessions turn.request.roomId).moved lease turn (.ready root profile), [])
  | _ => (s, [])

def check (lease : ℕ) : CodexTurns × List TurnEvent :=
  match s.turnAt lease with
  | some (turn, .ready root profile) =>
    if turn.cancelled then
      s.fail lease turn "Codex turn was cancelled because the room host context changed"
    else (s.moved lease turn (.pruning ⟨turn.request.roomId, root, profile⟩), [])
  | _ => (s, [])

def prune (lease now : ℕ) : CodexTurns × List TurnEvent :=
  match s.turnAt lease with
  | some (turn, .pruning key) =>
    ({ s with
        sessions := s.sessions.filter fun _ session ↦
          now - session.lastUsed < codexSessionIdleTimeout }.moved
        lease turn (.checkingOut key), [])
  | _ => (s, [])

def checkout (lease : ℕ) (alive : Bool) : CodexTurns × List TurnEvent :=
  match s.turnAt lease with
  | some (turn, .checkingOut key) =>
    let taken := { s with sessions := s.sessions.delete key }
    match s.sessions.get key, alive with
    | some session, true =>
      (taken.moved lease turn (.running key session), [.checkedOut lease session.sessionId])
    | _, _ => (taken.moved lease turn (.launching key), [])
  | _ => (s, [])

def launch (lease now : ℕ) : CodexTurns × List TurnEvent :=
  match s.turnAt lease with
  | some (turn, .launching key) =>
    ({ s with nextRpcSessionId := s.nextRpcSessionId + 1 }.moved lease turn
        (.starting key ⟨s.nextRpcSessionId, now⟩), [.started lease s.nextRpcSessionId])
  | _ => (s, [])

def initialized (lease : ℕ) (result : Except String Unit) : CodexTurns × List TurnEvent :=
  match s.turnAt lease, result with
  | some (turn, .starting _ _), .error message => s.fail lease turn message
  | some (turn, .starting key session), .ok () => (s.moved lease turn (.running key session), [])
  | _, _ => (s, [])

/-- A session that is not to be used again is dropped. -/
def finish (lease : ℕ) (reusable : Bool) (now : ℕ) : CodexTurns × List TurnEvent :=
  match s.turnAt lease with
  | some (turn, .running key session) =>
    (s.moved lease turn
      (if reusable then .checkingIn key { session with lastUsed := now } else .leaving), [])
  | _ => (s, [])

/-- `run_if_active`, whose lock is that of the cancellation. -/
def checkin (lease : ℕ) : CodexTurns × List TurnEvent :=
  match s.turnAt lease with
  | some (turn, .checkingIn key session) =>
    if turn.cancelled then (s.moved lease turn .leaving, [])
    else
      ({ s with sessions := s.sessions.set key session }.moved lease turn .leaving,
        [.checkedIn lease session.sessionId])
  | _ => (s, [])

def leave (lease : ℕ) : CodexTurns × List TurnEvent :=
  match s.turnAt lease with
  | some (_, .leaving) => ({ s with turns := s.turns.delete lease }, [.left lease])
  | _ => (s, [])

def shutdown (call : ℕ) (roomId : String) : CodexTurns × List TurnEvent :=
  match ensureRoomId roomId with
  | .error message => (s, [.failed message])
  | .ok () =>
    ({ s with shutdowns := s.shutdowns.set call (roomId, .revoking) },
      [.shutdownBegan call roomId])

def revoke (call : ℕ) : CodexTurns × List TurnEvent :=
  match s.shutdowns.get call with
  | some (roomId, .revoking) =>
    match s.authorization.revokeProjectRoot roomId with
    | .error message =>
      ({ s with shutdowns := s.shutdowns.delete call }, [.failed message])
    | .ok (_, authorization) =>
      ({ s with authorization, shutdowns := s.shutdowns.set call (roomId, .cancelling) },
        [.revoked call roomId])
  | _ => (s, [])

/-- `cancel_codex_turns_for_room`. -/
def cancelTurns (call : ℕ) : CodexTurns × List TurnEvent :=
  match s.shutdowns.get call with
  | some (roomId, .cancelling) =>
    ({ s with
        turns := s.turns.mapValues fun _ turn ↦
          if turn.request.roomId = roomId then { turn with cancelled := true } else turn
        shutdowns := s.shutdowns.set call (roomId, .closing) },
      [.turnsCancelled roomId])
  | _ => (s, [])

/-- The last step of a shutdown, which returns. -/
def closeSessions (call : ℕ) : CodexTurns × List TurnEvent :=
  match s.shutdowns.get call with
  | some (roomId, .closing) =>
    ({ s.closeRoomSessions roomId with shutdowns := s.shutdowns.delete call },
      [.shutdownReturned call roomId])
  | _ => (s, [])

def confirmRequest (requestKey roomId method : String) : CodexTurns × List TurnEvent :=
  match s.authorization.beginConfirmation (.serverRequest requestKey roomId method) with
  | .error message => (s, [.failed message])
  | .ok authorization => ({ s with authorization }, [])

def closeRequest (requestKey roomId method : String) : CodexTurns × List TurnEvent :=
  match s.authorization.finishConfirmation (.serverRequest requestKey roomId method) with
  | .error message => (s, [.failed message])
  | .ok authorization => ({ s with authorization }, [])

/-- One step of the process. A shutdown is one of its own: it begins where none of its number
is. -/
@[grind =] def step (action : TurnAction) : CodexTurns × List TurnEvent :=
  match action with
  | .begin request => s.begin request
  | .classify lease fs => s.classify lease fs
  | .openDialog lease => s.openDialog lease
  | .closeDialog lease result => s.closeDialog lease result
  | .authorize lease fs => s.authorize lease fs
  | .close lease => s.close lease
  | .check lease => s.check lease
  | .prune lease now => s.prune lease now
  | .checkout lease alive => s.checkout lease alive
  | .launch lease now => s.launch lease now
  | .initialized lease result => s.initialized lease result
  | .finish lease reusable now => s.finish lease reusable now
  | .checkin lease => s.checkin lease
  | .leave lease => s.leave lease
  | .shutdown call roomId => if s.shutdowns.has call then (s, []) else s.shutdown call roomId
  | .revoke call => s.revoke call
  | .cancelTurns call => s.cancelTurns call
  | .closeSessions call => s.closeSessions call
  | .confirmRequest requestKey roomId method => s.confirmRequest requestKey roomId method
  | .closeRequest requestKey roomId method => s.closeRequest requestKey roomId method

end CodexTurns

end MultAIplayer.Native
