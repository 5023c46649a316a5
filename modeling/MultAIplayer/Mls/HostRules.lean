import MultAIplayer.Mls.Policy

/-!
# Host rules

The rules that mls-rs asks before it builds or applies a Commit: only the leaf that the group
context names as host may commit, and a changed host context must name a member of the current
roster.
-/

namespace MultAIplayer.Mls

/-- A leaf of the tree. `basic` is the identifier of a basic credential, `none` for any other
credential. -/
structure Member where
  basic : Option Bytes
  deriving DecidableEq

/-- The leaves by index, blank ones included. -/
abbrev Roster := List (Option Member)

def Roster.memberWithIndex (roster : Roster) (leaf : ℕ) : Option Member := roster[leaf]?.join

structure Extension where
  extensionType : ℕ
  extensionData : Bytes
  deriving DecidableEq

abbrev ExtensionList := List Extension

inductive CommitDirection where
  | send
  | receive
  deriving DecidableEq

inductive CommitSource where
  | existingMember (index : ℕ)
  | newMember
  deriving DecidableEq

/-- The proposals of a Commit by kind. -/
structure ProposalBundle where
  additions : List Bytes := []
  removals : List ℕ := []
  groupContextExtensions : List ExtensionList := []
  /-- Updates, pre-shared keys, reinitializations, external initializations, custom proposals. -/
  others : List Bytes := []
  deriving DecidableEq

/-- `HostRuleError`, "invalid authenticated host authority". -/
inductive HostRuleError where
  | hostRuleError
  deriving DecidableEq

variable (serde : Serde)

def hostExtension (host : HostContext) : ExtensionList :=
  [⟨hostContextExtensionType, serde.encodeHostContext host⟩]

def hostFromExtensions (extensions : ExtensionList) : Except HostRuleError HostContext :=
  match extensions.find? fun value ↦ value.extensionType = hostContextExtensionType with
  | none => .error .hostRuleError
  | some extension =>
    match serde.hostContext extension.extensionData with
    | none => .error .hostRuleError
    | some host =>
      match validateHostCommit host.hostLeaf host with
      | .error _ => .error .hostRuleError
      | .ok _ => .ok host

def credentialAt (roster : Roster) (leaf : ℕ) : Except HostRuleError BasicAppCredential :=
  match roster.memberWithIndex leaf with
  | none => .error .hostRuleError
  | some member =>
    match member.basic with
    | none => .error .hostRuleError
    | some bytes =>
      match validateCredential serde bytes with
      | .error _ => .error .hostRuleError
      | .ok credential => .ok credential

def validateHost (roster : Roster) (extensions : ExtensionList) :
    Except HostRuleError HostContext :=
  match hostFromExtensions serde extensions with
  | .error error => .error error
  | .ok host =>
    match credentialAt serde roster host.hostLeaf with
    | .error error => .error error
    | .ok credential =>
      if credential.deviceId != host.hostDeviceId then .error .hostRuleError else .ok host

/-- `HostRules::filter_proposals`. -/
def filterProposals (_direction : CommitDirection) (source : CommitSource)
    (currentRoster : Roster) (currentExtensions : ExtensionList) (proposals : ProposalBundle) :
    Except HostRuleError ProposalBundle :=
  match validateHost serde currentRoster currentExtensions with
  | .error error => .error error
  | .ok host =>
    if source = .existingMember host.hostLeaf then
      match proposals.groupContextExtensions.head? with
      | none => .ok proposals
      | some change =>
        match validateHost serde currentRoster change with
        | .error error => .error error
        | .ok nextHost =>
          -- genesis has no transfer, every later change of the context is a handoff
          if nextHost.transferId.isNone then .error .hostRuleError else .ok proposals
    else .error .hostRuleError

/-- `HostRules::commit_options`, asked with the roster and the context after the Commit. -/
def commitOptions (roster : Roster) (extensions : ExtensionList) : Except HostRuleError Unit :=
  (validateHost serde roster extensions).map fun _ ↦ ()

/-! ### What the rules guarantee -/

variable {serde} {roster : Roster} {extensions : ExtensionList}

/-- A host context is well formed, and its leaf is a member with a credential that names a user and
the host's device. -/
structure HostIsMember (serde : Serde) (roster : Roster) (host : HostContext) : Prop where
  version : host.version = 2
  member : ∃ member bytes credential, roster.memberWithIndex host.hostLeaf = some member ∧
    member.basic = some bytes ∧ serde.credential bytes = some credential ∧
    validId credential.githubUserId = true ∧ credential.deviceId = host.hostDeviceId

theorem credentialAt_eq_ok {leaf : ℕ} {credential : BasicAppCredential}
    (h : credentialAt serde roster leaf = .ok credential) :
    ∃ member bytes, roster.memberWithIndex leaf = some member ∧ member.basic = some bytes ∧
      serde.credential bytes = some credential ∧ validId credential.githubUserId = true := by
  unfold credentialAt at h
  split at h
  · cases h
  rename_i member hmember
  split at h
  · cases h
  rename_i bytes hbytes
  split at h
  · cases h
  rename_i value hvalid
  cases h
  obtain ⟨hcredential, huser, -⟩ := validateCredential_eq_ok hvalid
  exact ⟨member, bytes, hmember, hbytes, hcredential, huser⟩

theorem hostFromExtensions_eq_ok {host : HostContext}
    (h : hostFromExtensions serde extensions = .ok host) : host.version = 2 := by
  unfold hostFromExtensions at h
  split at h
  · cases h
  split at h
  · cases h
  rename_i decoded _
  split at h
  · cases h
  rename_i hvalid
  cases h
  unfold validateHostCommit at hvalid
  split at hvalid
  · cases hvalid
  · rename_i hok
    simp only [Bool.or_eq_true, not_or, bne_iff_ne, ne_eq, not_not] at hok
    exact hok.1.1

theorem validateHost_eq_ok {host : HostContext}
    (h : validateHost serde roster extensions = .ok host) : HostIsMember serde roster host := by
  unfold validateHost at h
  split at h
  · cases h
  rename_i decoded hhost
  split at h
  · cases h
  rename_i credential hcredential
  split at h
  · cases h
  rename_i hdevice
  cases h
  obtain ⟨member, bytes, hmember, hbytes, hdecode, huser⟩ := credentialAt_eq_ok hcredential
  exact ⟨hostFromExtensions_eq_ok hhost, member, bytes, credential, hmember, hbytes, hdecode, huser,
    by simpa using hdevice⟩

theorem commitOptions_eq_ok {value : Unit} (h : commitOptions serde roster extensions = .ok value) :
    ∃ host, validateHost serde roster extensions = .ok host ∧ HostIsMember serde roster host := by
  unfold commitOptions at h
  cases hhost : validateHost serde roster extensions with
  | error error => simp [hhost, Except.map] at h
  | ok host => exact ⟨host, rfl, validateHost_eq_ok hhost⟩

/-- The rules pass a Commit on only as it is, and only from the host's leaf. -/
theorem filterProposals_eq_ok {direction : CommitDirection} {source : CommitSource}
    {proposals filtered : ProposalBundle}
    (h : filterProposals serde direction source roster extensions proposals = .ok filtered) :
    filtered = proposals ∧ ∃ host, validateHost serde roster extensions = .ok host ∧
      source = .existingMember host.hostLeaf := by
  unfold filterProposals at h
  split at h
  · cases h
  rename_i host hhost
  split at h
  · rename_i hsource
    have hfiltered : filtered = proposals := by
      split at h
      · cases h
        rfl
      split at h
      · cases h
      split at h
      · cases h
      · cases h
        rfl
    exact ⟨hfiltered, host, hhost, hsource⟩
  · cases h

end MultAIplayer.Mls
