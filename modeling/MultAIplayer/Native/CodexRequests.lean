import MultAIplayer.Native.CodexAuthorization
import MultAIplayer.Native.Value

/-!
# Requests of the Codex app-server

`CodexRpcState`, the table of what app-servers have asked the host and not yet been answered. Each
operation is what happens under one lock; `cancelWhere` is behind expiry, the end of a session and
the cancellation of a room.

The checks that decide nothing about authority (the projection of a request for the web view, the
contents of forms and permission profiles, sizes) are parameters, `RequestChecks`; so is what the
file system says of a path and the approved project root.
-/

namespace MultAIplayer.Native

/-- Times are in seconds. -/
def maxHumanWait : ℕ := 15 * 60
def maxPendingRequestsPerSession : ℕ := 64
def maxRpcMethodChars : ℕ := 256
def maxRpcParamsBytes : ℕ := 256 * 1024

def permissionsMethod : String := "item/permissions/requestApproval"

def interactiveMethods : List String :=
  ["item/commandExecution/requestApproval", "item/fileChange/requestApproval",
    "item/permissions/requestApproval", "item/tool/requestUserInput", "tool/requestUserInput",
    "mcpServer/elicitation/request", "applyPatchApproval", "execCommandApproval"]

structure PendingServerRequest where
  roomId : String
  method : String
  originalParams : Value
  id : RpcId
  sessionId : ℕ
  expiresAt : ℕ
  approvedProjectRoot : Option String

structure CodexServerRpcError where
  code : ℤ
  message : String

structure RespondCodexServerRequest where
  requestKey : String
  result : Option Value
  error : Option CodexServerRpcError

inductive ResponseField where
  | result
  | error
  deriving DecidableEq

structure PreparedCodexServerResponse where
  confirmation : Option CodexConfirmationBinding
  requestKey : String
  responseField : ResponseField
  responseValue : Value

/-- The checks of other modules. -/
structure RequestChecks where
  /-- `project_server_request` succeeds. -/
  projects : String → Value → Bool
  /-- `validate_permission_result`, of the parameters of the request and the result. -/
  permissionResult : Value → Value → Except String Unit
  /-- `validate_user_input_result`. -/
  userInputResult : Value → Value → Except String Unit
  /-- `validate_mcp_result`. -/
  mcpResult : Value → Value → Except String Unit
  /-- The bytes of the text of a value. -/
  size : Value → ℕ

/-- `permission_path_is_within_project`, as the file system has it at one moment. -/
abbrev PathWithin : Type := String → Option String → Bool

/-! ### Permissions -/

def pathsWithin (within : PathWithin) (root : Option String) (fileSystem : Value) (key : String) :
    Bool :=
  match fileSystem.get key with
  | none => true
  | some value =>
    match value.asArray with
    | none => false
    | some paths => paths.all fun path ↦ path.asStr.any fun path ↦ within path root

def filesystemPermissionsWithinProject (within : PathWithin) (root : Option String)
    (permissions : Value) : Bool :=
  match permissions.get "fileSystem" with
  | none => true
  | some fileSystem =>
    fileSystem.asObject.isSome && pathsWithin within root fileSystem "read" &&
      pathsWithin within root fileSystem "write" &&
        match fileSystem.get "entries" with
        | none => true
        | some value =>
          match value.asArray with
          | none => false
          | some entries => entries.all fun entry ↦
            (entry.get "access").bind Value.asStr = some "deny" ||
              ((entry.pointer ["path", "type"]).bind Value.asStr = some "path" &&
                ((entry.pointer ["path", "path"]).bind Value.asStr).any fun path ↦
                  within path root)

def enforcedPermissionDenial (within : PathWithin) (method : String) (params : Value)
    (root : Option String) : Option String :=
  if method = permissionsMethod then
    match params.get "permissions" with
    | none => none
    | some permissions =>
      if (permissions.pointer ["network", "enabled"]).bind Value.asBool = some true then
        some "Network permission requests are denied by host policy"
      else if !filesystemPermissionsWithinProject within root permissions then
        some "File permission requests outside the approved project root are denied by host policy"
      else none
  else none

/-! ### Answers -/

/-- The single field `decision` of an object. -/
def decision (result : Value) : Option String := (result.get "decision").bind Value.asStr

def validateCodexServerResult (checks : RequestChecks) (method : String) (params result : Value) :
    Except String Value :=
  match result.asObject with
  | none => .error "Codex server result must be an object"
  | some object =>
    if method = "item/commandExecution/requestApproval" ∨
        method = "item/fileChange/requestApproval" then
      if decision result ∈ ["accept", "acceptForSession", "decline", "cancel"].map some &&
          object.length = 1 then .ok result
      else .error "Codex approval decision is invalid"
    else if method = "execCommandApproval" ∨ method = "applyPatchApproval" then
      if decision result ∈
            ["approved", "approved_for_session", "denied", "timed_out", "abort"].map some &&
          object.length = 1 then .ok result
      else .error "Legacy Codex approval decision is invalid"
    else if method = permissionsMethod then
      (checks.permissionResult params result).map fun _ ↦ result
    else if method = "item/tool/requestUserInput" ∨ method = "tool/requestUserInput" then
      (checks.userInputResult params result).map fun _ ↦ result
    else if method = "mcpServer/elicitation/request" then
      (checks.mcpResult params result).map fun _ ↦ result
    else .error "This Codex server request only supports an error response"

/-- `response_requires_native_confirmation`: a positive answer to a privileged request. -/
def responseRequiresNativeConfirmation (method : String) (result : Value) : Bool :=
  if method = "item/commandExecution/requestApproval" ∨
      method = "item/fileChange/requestApproval" then
    decision result = some "accept" || decision result = some "acceptForSession"
  else if method = "execCommandApproval" ∨ method = "applyPatchApproval" then
    decision result = some "approved" || decision result = some "approved_for_session"
  else if method = permissionsMethod then
    ((result.get "permissions").bind Value.asObject).any fun permissions ↦ !permissions.isEmpty
  else false

/-- A positive answer, in the field that it is sent in. -/
def PositiveApproval (field : ResponseField) (method : String) (value : Value) : Bool :=
  field = .result && responseRequiresNativeConfirmation method value

/-! ### The table -/

/-- The key of a request, from its session and the counter of keys. -/
def requestKey (sessionId n : ℕ) : String := "rpc-" ++ toString sessionId ++ "-" ++ toString n

structure CodexRpcState where
  pending : InsertionMap String PendingServerRequest := .empty
  nextServerRequestKey : ℕ := 1

/-- What is registered for: the session, its room and the project root of its turn. -/
structure RpcRequestContext where
  roomId : String
  sessionId : ℕ
  approvedProjectRoot : Option String
  deriving DecidableEq

namespace CodexRpcState

variable (s : CodexRpcState) (checks : RequestChecks) (within : PathWithin)

/-- `cancel_where`, with the requests that are answered. -/
def cancelWhere (p : PendingServerRequest → Bool) :
    List (String × PendingServerRequest) × CodexRpcState :=
  (s.pending.entries.filter fun e ↦ p e.2,
    { s with pending := s.pending.filter fun _ request ↦ !p request })

def openCount (sessionId : ℕ) : ℕ := s.pending.entries.countP fun e ↦ e.2.sessionId = sessionId

/-- `register` after its sweep: an answer at once, or the key of what is now pending. -/
def register (context : RpcRequestContext) (id : RpcId) (method : String) (params : Value)
    (now : ℕ) : Except (ℤ × String) (String × PendingServerRequest × CodexRpcState) :=
  if method.isEmpty || maxRpcMethodChars < method.length then
    .error (-32601, "Unsupported app-server request")
  else if maxRpcParamsBytes < checks.size params then
    .error (-32600, "Server request payload exceeds client limit")
  else if method ∉ interactiveMethods then .error (-32601, "Unsupported app-server request")
  else
    match enforcedPermissionDenial within method params context.approvedProjectRoot with
    | some reason => .error (-32001, reason)
    | none =>
      if !checks.projects method params then
        .error (-32602, "Invalid or unsupported interactive request")
      else if maxPendingRequestsPerSession ≤ s.openCount context.sessionId then
        .error (-32000, "Too many pending server requests")
      else
        let key := requestKey context.sessionId s.nextServerRequestKey
        let request : PendingServerRequest :=
          { roomId := context.roomId, method, originalParams := params, id,
            sessionId := context.sessionId, expiresAt := now + maxHumanWait,
            approvedProjectRoot := context.approvedProjectRoot }
        .ok (key, request,
          { pending := s.pending.set key request
            nextServerRequestKey := s.nextServerRequestKey + 1 })

/-- The part of `prepare_response` that reads the answer. -/
def readResponse (pending : PendingServerRequest) (request : RespondCodexServerRequest) :
    Except String (ResponseField × Value) :=
  match request.result, request.error with
  | some result, none =>
    (validateCodexServerResult checks pending.method pending.originalParams result).map
      fun result ↦ (.result, result)
  | none, some error =>
    if (trim error.message).isEmpty || 2000 < error.message.length then
      .error "Codex server error message is invalid"
    else
      .ok (.error, .object [("code", .integer error.code), ("message", .string error.message),
        ("data", .null)])
  | _, _ => .error "Codex server response must contain exactly one of result or error"

/-- `prepare_response` after its sweep. -/
def prepareResponse (request : RespondCodexServerRequest) :
    Except String PreparedCodexServerResponse :=
  if 128 < Text.utf8Length request.requestKey || (trim request.requestKey).isEmpty then
    .error "Codex server request key is invalid"
  else
    match s.pending.get request.requestKey with
    | none => .error "Codex server request is no longer pending"
    | some pending =>
      match readResponse checks pending request with
      | .error message => .error message
      | .ok (field, value) =>
        if maxRpcParamsBytes < checks.size value then
          .error "Codex server response exceeds the size limit"
        else
          let positive := PositiveApproval field pending.method value
          let denial := if positive && pending.method = permissionsMethod then
              enforcedPermissionDenial within pending.method pending.originalParams
                pending.approvedProjectRoot
            else none
          match denial with
          | some reason =>
            .error ("Codex permission request changed or is no longer authorized: " ++ reason)
          | none =>
            let binding := .serverRequest request.requestKey pending.roomId pending.method
            .ok ⟨if positive then some binding else none, request.requestKey, field, value⟩

/-- What `finish_response` looks up again before it answers. -/
def recheckResponse (prepared : PreparedCodexServerResponse) : Except String Unit :=
  match prepared.confirmation with
  | some (.serverRequest key roomId method) =>
    match s.pending.get key with
    | none => .error "Codex server request is no longer pending"
    | some current =>
      if current.roomId != roomId || current.method != method then
        .error "Codex native confirmation does not match the pending request"
      else if method = permissionsMethod then
        match enforcedPermissionDenial within method current.originalParams
            current.approvedProjectRoot with
        | some reason => .error
            ("Codex permission request is no longer authorized after native confirmation: " ++ reason)
        | none => .ok ()
      else .ok ()
  | _ => .ok ()

/-- The removal in `finish_response`, whose answer is then sent. -/
def takePending (key : String) : Except String (PendingServerRequest × CodexRpcState) :=
  match s.pending.get key with
  | none => .error "Codex server request is no longer pending"
  | some request => .ok (request, { s with pending := s.pending.delete key })

/-- `remove_resolved`, of the entry that the search through the table comes to. -/
def removeResolved (sessionId : ℕ) (id : RpcId) (found : String) : Option CodexRpcState :=
  match s.pending.get found with
  | none => none
  | some request =>
    if request.sessionId = sessionId ∧ request.id = id then
      some { s with pending := s.pending.delete found }
    else none

end CodexRpcState

/-! ### What the operations do -/

theorem toList_counter (n : ℕ) : (toString n).toList = Nat.toDigits 10 n := by
  simp

/-- The digits after the last dash of a key are the counter. -/
theorem requestKey_inj {sessionId sessionId' n n' : ℕ}
    (h : requestKey sessionId n = requestKey sessionId' n') : n = n' := by
  have hdigits : ∀ m : ℕ, ∀ c ∈ (toString m).toList.reverse, (c != '-') = true := by
    intro m c hc
    rw [List.mem_reverse, toList_counter] at hc
    have hdigit : c.isDigit = true := Nat.isDigit_of_mem_toDigits (by decide) (by decide) hc
    rw [bne_iff_ne]
    rintro rfl
    exact absurd hdigit (by decide)
  have hlast : ∀ i m : ℕ, (requestKey i m).toList.reverse.takeWhile (· != '-') =
      (toString m).toList.reverse := by
    intro i m
    rw [requestKey, String.toList_append, String.toList_append, List.reverse_append,
      List.reverse_append, List.takeWhile_append_of_pos (hdigits m)]
    simp
  have heq := hlast sessionId n
  rw [h, hlast sessionId' n'] at heq
  have htext : (toString n').toList = (toString n).toList := List.reverse_injective heq
  rw [toList_counter, toList_counter] at htext
  rw [← Nat.ofDigitChars_ten_toDigits (n := n), ← htext, Nat.ofDigitChars_ten_toDigits]

namespace CodexRpcState

variable {s state : CodexRpcState} {checks : RequestChecks} {within : PathWithin}

/-- **A registered request is new**, and its session has had room for it. -/
theorem register_eq_ok {context : RpcRequestContext} {id : RpcId} {method : String}
    {params : Value} {now : ℕ} {key : String} {request : PendingServerRequest}
    (h : s.register checks within context id method params now = .ok (key, request, state)) :
    key = requestKey context.sessionId s.nextServerRequestKey ∧
      request.sessionId = context.sessionId ∧
        s.openCount context.sessionId < maxPendingRequestsPerSession ∧
          state = { pending := s.pending.set key request
                    nextServerRequestKey := s.nextServerRequestKey + 1 } := by
  unfold register at h
  split at h
  · cases h
  split at h
  · cases h
  split at h
  · cases h
  split at h
  · cases h
  split at h
  · cases h
  split at h
  · cases h
  rename_i hcount
  obtain ⟨rfl, hrest⟩ := Prod.mk.inj (Except.ok.inj h)
  obtain ⟨rfl, rfl⟩ := Prod.mk.inj hrest
  exact ⟨rfl, rfl, by omega, rfl⟩

/-- **A prepared answer is bound** to the request that is pending under its key, and asks for a
confirmation when it is positive and the request privileged. -/
theorem prepareResponse_eq_ok {request : RespondCodexServerRequest}
    {prepared : PreparedCodexServerResponse}
    (h : s.prepareResponse checks within request = .ok prepared) :
    ∃ pending, s.pending.get prepared.requestKey = some pending ∧
      prepared.confirmation =
        if PositiveApproval prepared.responseField pending.method prepared.responseValue then
          some (.serverRequest prepared.requestKey pending.roomId pending.method) else none := by
  unfold prepareResponse at h
  split at h
  · cases h
  split at h
  · cases h
  rename_i pending hpending
  split at h
  · cases h
  split at h
  · cases h
  dsimp only at h
  split at h
  · cases h
  · cases h
    exact ⟨pending, hpending, rfl⟩

/-- What was confirmed is still pending, and permitted at this moment. -/
theorem recheckResponse_eq_ok {prepared : PreparedCodexServerResponse} {key roomId method : String}
    (h : s.recheckResponse within prepared = .ok ())
    (hbinding : prepared.confirmation = some (.serverRequest key roomId method)) :
    ∃ current, s.pending.get key = some current ∧
      enforcedPermissionDenial within current.method current.originalParams
        current.approvedProjectRoot = none := by
  unfold recheckResponse at h
  rw [hbinding] at h
  dsimp only at h
  split at h
  · cases h
  rename_i current hcurrent
  refine ⟨current, hcurrent, ?_⟩
  split at h
  · cases h
  rename_i hsame
  simp only [Bool.or_eq_true, bne_iff_ne, not_or, not_not] at hsame
  obtain ⟨-, rfl⟩ := hsame
  split at h
  · split at h
    · cases h
    · assumption
  · rename_i hother
    exact if_neg hother

end CodexRpcState

end MultAIplayer.Native
