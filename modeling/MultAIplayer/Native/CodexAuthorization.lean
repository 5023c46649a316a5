import MultAIplayer.Lib.InsertionMap
import MultAIplayer.Native.Validation

/-!
# Authority for Codex

`CodexAuthorizationState`: the project root that each room has been given, with the profile that it
was given for, and the one native confirmation that may be open.
-/

namespace MultAIplayer.Native

/-- What a native confirmation is about. -/
inductive CodexConfirmationBinding where
  | projectRoot (roomId canonicalRoot sandboxMode : String) (networkAccess : Bool)
  | serverRequest (requestKey roomId method : String)
  deriving DecidableEq

inductive ProjectRootAuthorization where
  | alreadyAuthorized (root : String)
  | requiresConfirmation (root : String)
  deriving DecidableEq

structure AuthorizedProjectRoot where
  canonicalRoot : String
  sandboxMode : String
  networkAccess : Bool
  deriving DecidableEq

structure CodexAuthorizationState where
  projectRoots : InsertionMap String AuthorizedProjectRoot := .empty
  confirmationInFlight : Option CodexConfirmationBinding := none

def canonicalProjectRoot (fs : FileSystem) (cwd : String) : Except String String :=
  match ensureProjectPath cwd, fs.canonicalize cwd with
  | .error message, _ => .error message
  | _, .error error => .error ("Failed to resolve project path: " ++ error)
  | .ok (), .ok path => .ok path

namespace CodexAuthorizationState

variable (s : CodexAuthorizationState) (fs : FileSystem)

def classifyProjectRoot (roomId requestedRoot sandboxMode : String) (networkAccess : Bool) :
    Except String ProjectRootAuthorization :=
  match ensureRoomId roomId, canonicalProjectRoot fs requestedRoot with
  | .error message, _ => .error message
  | _, .error message => .error message
  | .ok (), .ok canonicalRoot =>
    if s.projectRoots.get roomId = some ⟨canonicalRoot, sandboxMode, networkAccess⟩ then
      .ok (.alreadyAuthorized canonicalRoot)
    else .ok (.requiresConfirmation canonicalRoot)

def authorizeProjectRoot (roomId expectedCanonicalRoot sandboxMode : String)
    (networkAccess : Bool) : Except String (String × CodexAuthorizationState) :=
  match ensureRoomId roomId, fs.canonicalize expectedCanonicalRoot with
  | .error message, _ => .error message
  | _, .error error => .error ("Failed to revalidate the Codex project root: " ++ error)
  | .ok (), .ok current =>
    if current != expectedCanonicalRoot || !fs.isDir current then
      .error "The Codex project root changed while native confirmation was open"
    else
      .ok (current, { s with
        projectRoots := s.projectRoots.set roomId ⟨current, sandboxMode, networkAccess⟩ })

def revokeProjectRoot (roomId : String) : Except String (Bool × CodexAuthorizationState) :=
  match ensureRoomId roomId with
  | .error message => .error message
  | .ok () =>
    .ok (s.projectRoots.has roomId, { s with projectRoots := s.projectRoots.delete roomId })

def beginConfirmation (binding : CodexConfirmationBinding) :
    Except String CodexAuthorizationState :=
  match s.confirmationInFlight with
  | some _ => .error "A Codex native confirmation is already open"
  | none => .ok { s with confirmationInFlight := some binding }

def finishConfirmation (binding : CodexConfirmationBinding) :
    Except String CodexAuthorizationState :=
  if s.confirmationInFlight = some binding then .ok { s with confirmationInFlight := none }
  else .error "Codex native confirmation no longer matches the pending operation"

variable {s fs} {state : CodexAuthorizationState} {binding : CodexConfirmationBinding}

theorem beginConfirmation_eq_ok (h : s.beginConfirmation binding = .ok state) :
    s.confirmationInFlight = none ∧ state = { s with confirmationInFlight := some binding } := by
  unfold beginConfirmation at h
  split at h
  · cases h
  · rename_i hnone
    exact ⟨hnone, (Except.ok.inj h).symm⟩

theorem finishConfirmation_eq_ok (h : s.finishConfirmation binding = .ok state) :
    s.confirmationInFlight = some binding ∧ state = { s with confirmationInFlight := none } := by
  unfold finishConfirmation at h
  split at h
  · rename_i hbinding
    exact ⟨hbinding, (Except.ok.inj h).symm⟩
  · cases h

theorem finishConfirmation_roots (h : s.finishConfirmation binding = .ok state) :
    state.projectRoots = s.projectRoots := by
  rw [(finishConfirmation_eq_ok h).2]

theorem beginConfirmation_roots (h : s.beginConfirmation binding = .ok state) :
    state.projectRoots = s.projectRoots := by
  rw [(beginConfirmation_eq_ok h).2]

theorem authorizeProjectRoot_eq_ok {roomId root sandboxMode canonical : String}
    {networkAccess : Bool}
    (h : s.authorizeProjectRoot fs roomId root sandboxMode networkAccess = .ok (canonical, state)) :
    ∃ given, state.projectRoots = s.projectRoots.set roomId given := by
  unfold authorizeProjectRoot at h
  split at h
  · cases h
  · cases h
  split at h
  · cases h
  · cases h
    exact ⟨_, rfl⟩

theorem revokeProjectRoot_eq_ok {roomId : String} {had : Bool}
    (h : s.revokeProjectRoot roomId = .ok (had, state)) :
    state.projectRoots = s.projectRoots.delete roomId := by
  unfold revokeProjectRoot at h
  split at h
  · cases h
  · cases h
    rfl

end CodexAuthorizationState

end MultAIplayer.Native
