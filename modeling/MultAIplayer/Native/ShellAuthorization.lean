import MultAIplayer.Lib.InsertionMap
import MultAIplayer.Native.CommandSafety
import MultAIplayer.Native.Validation

/-!
# Shell authorization

A command that another member asks for is run on the host's computer after a native confirmation,
which issues a token for one execution. The confirmation may also leave a grant, under which the
same command text in the same directory gets its tokens without a dialog for ten minutes.

A command of the web view is suspended at its dialog and between the tables that it locks. `Pending`
says where it is; each step of `step` is what happens under one lock. The clock, the file system,
the answers of the user and the drawn tokens come with the actions.
-/

namespace MultAIplayer.Native

inductive ShellExecutionKind where
  | remoteRequest
  deriving DecidableEq

structure ShellAuthorizationRequest where
  roomId : String
  cwd : String
  command : String
  kind : ShellExecutionKind
  requesterLabel : String
  deriving DecidableEq

structure AuthorizedShellExecution where
  roomId : String
  cwd : String
  command : String
  kind : ShellExecutionKind
  expiresAt : ℕ
  deriving DecidableEq

structure ExactCommandGrant where
  roomId : String
  cwd : String
  command : String
  expiresAt : ℕ
  deriving DecidableEq

/-- Times are in seconds. -/
def authorizationLifetime : ℕ := 120
def exactCommandGrantLifetime : ℕ := 10 * 60
def maxRequesterLabelChars : ℕ := 160

structure ShellAuthorizationState where
  authorizations : InsertionMap String AuthorizedShellExecution := .empty
  exactCommandGrants : List ExactCommandGrant := []
  confirmationInFlight : Bool := false

def validateRequesterLabel (requesterLabel : String) : Except String Unit :=
  let requester := trim requesterLabel
  if requester.isEmpty || maxRequesterLabelChars < requester.length ||
      requester.toList.any isControl then
    .error "Shell requester label is invalid"
  else .ok ()

def canonicalWorkspace (fs : FileSystem) (cwd : String) : Except String String :=
  match ensureExistingDir fs cwd, fs.canonicalize cwd with
  | .error message, _ => .error message
  | _, .error error => .error ("Failed to resolve the working directory: " ++ error)
  | .ok (), .ok path => .ok path

/-- `validate_authorization_request`. -/
def ShellAuthorizationRequest.validate (fs : FileSystem) (request : ShellAuthorizationRequest) :
    Except String Unit := do
  ensureRoomId request.roomId
  ensureExistingDir fs request.cwd
  ensureTerminalCommand request.command
  validateRequesterLabel request.requesterLabel

/-- A grant of the room and the command text, in the directory. -/
def ExactCommandGrant.covers (grant : ExactCommandGrant) (roomId cwd command : String) : Bool :=
  grant.roomId = roomId && grant.cwd = cwd && grant.command = command

namespace ShellAuthorizationState

variable (s : ShellAuthorizationState) (fs : FileSystem) (now : ℕ)

/-- `issue`, which draws the token. -/
def issue (token : String) (request : ShellAuthorizationRequest) :
    Except String (AuthorizedShellExecution × ShellAuthorizationState) :=
  match request.validate fs, canonicalWorkspace fs request.cwd with
  | .error message, _ => .error message
  | _, .error message => .error message
  | .ok (), .ok cwd =>
    let authorization : AuthorizedShellExecution :=
      ⟨request.roomId, cwd, request.command, request.kind, now + authorizationLifetime⟩
    let current := s.authorizations.filter fun _ value ↦ now < value.expiresAt
    .ok (authorization, { s with authorizations := current.set token authorization })

def beginConfirmation : Except String ShellAuthorizationState :=
  if s.confirmationInFlight then .error "A native shell confirmation is already open"
  else .ok { s with confirmationInFlight := true }

def finishConfirmation : ShellAuthorizationState := { s with confirmationInFlight := false }

/-- `consume`: the token is gone, whether the execution is let through or not. -/
def consume (token roomId cwd command : String) (kind : ShellExecutionKind) :
    Except String AuthorizedShellExecution × ShellAuthorizationState :=
  match s.authorizations.get token with
  | none => (.error "Native confirmation is required before running this command", s)
  | some authorization =>
    let rest := { s with authorizations := s.authorizations.delete token }
    if authorization.expiresAt ≤ now then
      (.error "Native shell confirmation expired; approve the command again", rest)
    else
      match canonicalWorkspace fs cwd with
      | .error message => (.error message, rest)
      | .ok canonicalCwd =>
        if authorization.roomId != roomId || authorization.cwd != canonicalCwd ||
            authorization.command != command || authorization.kind != kind then
          (.error "Native shell confirmation does not match this command", rest)
        else (.ok authorization, rest)

/-- `has_exact_command_grant`, with the grant that is found; expired ones are dropped. -/
def exactCommandGrant (request : ShellAuthorizationRequest) :
    Except String (Option ExactCommandGrant × ShellAuthorizationState) :=
  match canonicalWorkspace fs request.cwd with
  | .error message => .error message
  | .ok cwd =>
    let grants := s.exactCommandGrants.filter fun grant ↦ now < grant.expiresAt
    .ok (grants.find? fun grant ↦ grant.covers request.roomId cwd request.command,
      { s with exactCommandGrants := grants })

/-- `grant_exact_command`, in the place of an older grant of the same. -/
def grantExactCommand (request : ShellAuthorizationRequest) :
    Except String (ExactCommandGrant × ShellAuthorizationState) :=
  match canonicalWorkspace fs request.cwd with
  | .error message => .error message
  | .ok cwd =>
    let grant : ExactCommandGrant :=
      ⟨request.roomId, cwd, request.command, now + exactCommandGrantLifetime⟩
    let others := s.exactCommandGrants.filter fun existing ↦
      now < existing.expiresAt && !existing.covers grant.roomId grant.cwd grant.command
    .ok (grant, { s with exactCommandGrants := others ++ [grant] })

def clearExactCommandGrants (roomId : String) : ℕ × ShellAuthorizationState :=
  let kept := s.exactCommandGrants.filter fun grant ↦ grant.roomId != roomId
  (s.exactCommandGrants.length - kept.length, { s with exactCommandGrants := kept })

variable {s fs now} {state : ShellAuthorizationState} {request : ShellAuthorizationRequest}

/-- What a token is issued for, and what happens to the others. -/
theorem issue_eq_ok {token : String} {authorization : AuthorizedShellExecution}
    (h : s.issue fs now token request = .ok (authorization, state)) :
    authorization.roomId = request.roomId ∧ authorization.command = request.command ∧
      authorization.kind = request.kind ∧
        canonicalWorkspace fs request.cwd = .ok authorization.cwd ∧
          state.exactCommandGrants = s.exactCommandGrants ∧
            ∀ other found, state.authorizations.get other = some found →
              other = token ∧ found = authorization ∨
                other ≠ token ∧ s.authorizations.get other = some found := by
  unfold issue at h
  split at h
  · cases h
  · cases h
  rename_i cwd _ hcwd
  obtain ⟨rfl, rfl⟩ := Prod.mk.inj (Except.ok.inj h)
  refine ⟨rfl, rfl, rfl, hcwd, rfl, fun other found hget ↦ ?_⟩
  rw [InsertionMap.get_set] at hget
  split at hget
  · rename_i hother
    exact .inl ⟨hother, (Option.some.inj hget).symm⟩
  · rename_i hother
    rw [InsertionMap.get_filter, Option.filter_eq_some_iff] at hget
    exact .inr ⟨hother, hget.1⟩

/-- What a grant is for, and that the other grants are older ones. -/
theorem grantExactCommand_eq_ok {grant : ExactCommandGrant}
    (h : s.grantExactCommand fs now request = .ok (grant, state)) :
    grant.roomId = request.roomId ∧ grant.command = request.command ∧
      canonicalWorkspace fs request.cwd = .ok grant.cwd ∧
        state.authorizations = s.authorizations ∧
          ∀ other ∈ state.exactCommandGrants, other = grant ∨ other ∈ s.exactCommandGrants := by
  unfold grantExactCommand at h
  split at h
  · cases h
  rename_i cwd hcwd
  obtain ⟨rfl, rfl⟩ := Prod.mk.inj (Except.ok.inj h)
  refine ⟨rfl, rfl, hcwd, rfl, fun other hother ↦ ?_⟩
  rcases List.mem_append.mp hother with hother | hother
  · exact .inr (List.mem_filter.mp hother).1
  · exact .inl (List.mem_singleton.mp hother)

/-- **A token that is consumed is gone**, and lets through what it was issued for until it
expires. -/
theorem consume_cases (s : ShellAuthorizationState) (fs : FileSystem) (now : ℕ)
    (token roomId cwd command : String) (kind : ShellExecutionKind) :
    ((∃ message, (s.consume fs now token roomId cwd command kind).1 = .error message) ∨
      ∃ authorization, (s.consume fs now token roomId cwd command kind).1 = .ok authorization ∧
        s.authorizations.get token = some authorization ∧ now < authorization.expiresAt ∧
          canonicalWorkspace fs cwd = .ok authorization.cwd ∧ authorization.roomId = roomId ∧
            authorization.command = command ∧ authorization.kind = kind) ∧
      (s.consume fs now token roomId cwd command kind).2 =
        { s with authorizations := s.authorizations.delete token } := by
  unfold consume
  cases hget : s.authorizations.get token with
  | none =>
    refine ⟨.inl ⟨_, rfl⟩, ?_⟩
    rw [InsertionMap.delete_eq_self hget]
  | some authorization =>
    dsimp only
    split
    · exact ⟨.inl ⟨_, rfl⟩, rfl⟩
    rename_i hnow
    split
    · exact ⟨.inl ⟨_, rfl⟩, rfl⟩
    rename_i canonicalCwd hcwd
    split
    · exact ⟨.inl ⟨_, rfl⟩, rfl⟩
    · rename_i hmatch
      simp only [Bool.or_eq_true, bne_iff_ne, not_or, not_not] at hmatch
      obtain ⟨⟨⟨hroom, hdirectory⟩, hcommand⟩, -⟩ := hmatch
      have hkind : authorization.kind = kind := by
        cases authorization.kind
        cases kind
        rfl
      exact ⟨.inr ⟨authorization, rfl, rfl, by omega, hdirectory ▸ hcwd, hroom, hcommand, hkind⟩, rfl⟩

end ShellAuthorizationState

/-! ### Commands of the web view -/

/-- The button that closed a dialog. -/
inductive DialogResult where
  | yes
  | no
  | ok
  | cancel
  | custom (label : String)
  deriving DecidableEq

/-- The answer asks for a grant as well. -/
def DialogResult.reusable : DialogResult → Bool
  | no => true
  | custom value => value = "Repeat this command text for 10 minutes"
  | _ => false

def DialogResult.approved (risk : Option CommandReviewRisk) (decision : DialogResult) : Bool :=
  match decision with
  | yes | ok => true
  | custom value =>
    value = "Run once" || value = "Allow once" || (decision.reusable && risk.isNone)
  | _ => decision.reusable && risk.isNone

/-- A grant is approved only for a command text without a risk. -/
theorem DialogResult.eq_none_of_reusable {risk : Option CommandReviewRisk}
    {decision : DialogResult} (happroved : decision.approved risk = true)
    (hreusable : decision.reusable = true) : risk = none := by
  cases decision with
  | no => simpa [DialogResult.approved, DialogResult.reusable] using happroved
  | custom value =>
    obtain rfl : value = "Repeat this command text for 10 minutes" := by
      simpa [DialogResult.reusable] using hreusable
    simpa [DialogResult.approved, DialogResult.reusable] using happroved
  | yes => cases hreusable
  | ok => cases hreusable
  | cancel => cases hreusable

/-- Where a suspended command is. -/
inductive Pending where
  | confirming (request : ShellAuthorizationRequest) (cwd : String)
  | asking (request : ShellAuthorizationRequest) (cwd : String)
  | granting (request : ShellAuthorizationRequest)
  | issuing (request : ShellAuthorizationRequest)
  | confirmingRevocation (roomId : String)
  | askingRevocation (roomId : String)
  | revoking (roomId : String)
  deriving DecidableEq

/-- The native process, as far as shell commands go. -/
structure ShellProcess where
  state : ShellAuthorizationState := {}
  pending : InsertionMap ℕ Pending := .empty
  fs : FileSystem

inductive ShellAction where
  /-- `authorize_shell_execution` up to the check for a grant. -/
  | authorize (call : ℕ) (request : ShellAuthorizationRequest) (now : ℕ)
  /-- A dialog opens. -/
  | openDialog (call : ℕ)
  /-- A dialog closes, or its thread fails with a text. -/
  | closeDialog (call : ℕ) (result : Except String DialogResult)
  | grant (call : ℕ) (now : ℕ)
  | issue (call : ℕ) (token : String) (now : ℕ)
  /-- `clear_shell_execution_grants` up to its dialog. -/
  | clear (call : ℕ) (roomId : String)
  | closeRevocation (call : ℕ) (result : Except String Bool)
  | revoke (call : ℕ)
  /-- `run_shell_command`. -/
  | run (token roomId cwd command : String) (now : ℕ)
  | changeFileSystem (fs : FileSystem)

inductive ShellEvent where
  /-- A request is to be confirmed in a directory. -/
  | reviewed (call : ℕ) (request : ShellAuthorizationRequest) (cwd : String)
  /-- The dialog shows it. -/
  | asked (call : ℕ) (request : ShellAuthorizationRequest) (cwd : String)
  | approved (call : ℕ) (request : ShellAuthorizationRequest) (reusable : Bool)
  | granted (call : ℕ) (grant : ExactCommandGrant)
  /-- A grant is found for a request, whose directory it is for. -/
  | matched (call : ℕ) (request : ShellAuthorizationRequest) (grant : ExactCommandGrant) (now : ℕ)
  | issued (call : ℕ) (token : String) (authorization : AuthorizedShellExecution)
  | cleared (roomId : String)
  /-- An execution is let through, in a directory. -/
  | executed (token roomId cwd command : String) (kind : ShellExecutionKind) (now : ℕ)
  | fileSystemChanged
  | failed (message : String)
  deriving DecidableEq

namespace ShellProcess

variable (s : ShellProcess)

/-- A command is over. -/
def finished (call : ℕ) : ShellProcess := { s with pending := s.pending.delete call }

/-- A command is suspended, or goes on to its next step. -/
def suspended (call : ℕ) (at_ : Pending) : ShellProcess :=
  { s with pending := s.pending.set call at_ }

def withState (state : ShellAuthorizationState) : ShellProcess := { s with state }

def fail (call : ℕ) (message : String) : ShellProcess × List ShellEvent :=
  (s.finished call, [.failed message])

/-- The validation, the review and the look for a grant. -/
def authorize (call : ℕ) (request : ShellAuthorizationRequest) (now : ℕ) :
    ShellProcess × List ShellEvent :=
  match request.validate s.fs, canonicalWorkspace s.fs request.cwd with
  | .error message, _ => s.fail call message
  | _, .error message => s.fail call message
  | .ok (), .ok cwd =>
    if commandReviewRisk request.command = none then
      match s.state.exactCommandGrant s.fs now request with
      | .error message => s.fail call message
      | .ok (some grant, state) =>
        ((s.withState state).suspended call (.issuing request), [.matched call request grant now])
      | .ok (none, state) =>
        ((s.withState state).suspended call (.confirming request cwd), [.reviewed call request cwd])
    else (s.suspended call (.confirming request cwd), [.reviewed call request cwd])

/-- The dialog opens if no other is open. -/
def openDialog (call : ℕ) : ShellProcess × List ShellEvent :=
  match s.pending.get call with
  | some (.confirming request cwd) =>
    match s.state.beginConfirmation with
    | .ok state =>
      ((s.withState state).suspended call (.asking request cwd), [.asked call request cwd])
    | .error message => s.fail call message
  | some (.confirmingRevocation roomId) =>
    match s.state.beginConfirmation with
    | .ok state => ((s.withState state).suspended call (.askingRevocation roomId), [])
    | .error message => s.fail call message
  | _ => (s, [])

def closeDialog (call : ℕ) (result : Except String DialogResult) :
    ShellProcess × List ShellEvent :=
  match s.pending.get call with
  | some (.asking request _) =>
    let closed := s.withState s.state.finishConfirmation
    match result with
    | .error message => closed.fail call ("Native shell confirmation failed: " ++ message)
    | .ok decision =>
      if !decision.approved (commandReviewRisk request.command) then
        closed.fail call "Command execution was denied in the native confirmation dialog"
      else
        (closed.suspended call (if decision.reusable then .granting request else .issuing request),
          [.approved call request decision.reusable])
  | _ => (s, [])

def grant (call now : ℕ) : ShellProcess × List ShellEvent :=
  match s.pending.get call with
  | some (.granting request) =>
    match s.state.grantExactCommand s.fs now request with
    | .error message => s.fail call message
    | .ok (grant, state) =>
      ((s.withState state).suspended call (.issuing request), [.granted call grant])
  | _ => (s, [])

def issue (call : ℕ) (token : String) (now : ℕ) : ShellProcess × List ShellEvent :=
  match s.pending.get call with
  | some (.issuing request) =>
    match s.state.issue s.fs now token request with
    | .error message => s.fail call message
    | .ok (authorization, state) =>
      ((s.withState state).finished call, [.issued call token authorization])
  | _ => (s, [])

def clear (call : ℕ) (roomId : String) : ShellProcess × List ShellEvent :=
  match ensureRoomId roomId with
  | .error message => (s, [.failed message])
  | .ok () => (s.suspended call (.confirmingRevocation roomId), [])

def closeRevocation (call : ℕ) (result : Except String Bool) : ShellProcess × List ShellEvent :=
  match s.pending.get call with
  | some (.askingRevocation roomId) =>
    let closed := s.withState s.state.finishConfirmation
    match result with
    | .error message => closed.fail call ("Native grant revocation failed: " ++ message)
    | .ok false => closed.fail call "Command-grant revocation was cancelled"
    | .ok true => (closed.suspended call (.revoking roomId), [])
  | _ => (s, [])

def revoke (call : ℕ) : ShellProcess × List ShellEvent :=
  match s.pending.get call with
  | some (.revoking roomId) =>
    ((s.withState (s.state.clearExactCommandGrants roomId).2).finished call, [.cleared roomId])
  | _ => (s, [])

/-- `run_shell_command` up to the shell itself, which it starts in the returned directory. -/
@[grind =] def run (token roomId cwd command : String) (now : ℕ) : ShellProcess × List ShellEvent :=
  match ensureExistingDir s.fs cwd, ensureTerminalCommand command with
  | .error message, _ => (s, [.failed message])
  | _, .error message => (s, [.failed message])
  | .ok (), .ok () =>
    match s.state.consume s.fs now token roomId cwd command .remoteRequest with
    | (.error message, state) => (s.withState state, [.failed message])
    | (.ok authorization, state) =>
      (s.withState state,
        [.executed token roomId authorization.cwd command .remoteRequest now])

/-- One step of the process. A call is one of its own: it begins where none of its number is. -/
@[grind =] def step (action : ShellAction) : ShellProcess × List ShellEvent :=
  match action with
  | .authorize call request now =>
    if s.pending.has call then (s, []) else s.authorize call request now
  | .openDialog call => s.openDialog call
  | .closeDialog call result => s.closeDialog call result
  | .grant call now => s.grant call now
  | .issue call token now => s.issue call token now
  | .clear call roomId => if s.pending.has call then (s, []) else s.clear call roomId
  | .closeRevocation call result => s.closeRevocation call result
  | .revoke call => s.revoke call
  | .run token roomId cwd command now => s.run token roomId cwd command now
  | .changeFileSystem fs => ({ s with fs }, [.fileSystemChanged])

/-- The process as it starts. -/
def initial (fs : FileSystem) : ShellProcess := { fs }

end ShellProcess

end MultAIplayer.Native
