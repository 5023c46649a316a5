import MultAIplayer.Mls.HostRules

/-!
# Groups

A group as mls-rs keeps it, up to its cryptography: the epoch with its roster and context, the
Commit that this member has built and nobody has confirmed, and the prior epochs that its storage
does not have yet.

## The library as a parameter

`MlsRs` is what the library computes: it opens and makes messages, and derives epochs. What the
library asks the application's rules, and what it does with its own state, is written out here. It
refuses to build a second Commit over a pending one and to process a Commit of its own leaf, and it
applies its own pending Commit when that very message comes in.
-/

namespace MultAIplayer.Mls

/-- An epoch of a group. The secrets include the state of the ratchets and the proposals received. -/
structure EpochState (K : Type) where
  number : ℕ
  roster : Roster
  extensions : ExtensionList
  secrets : K
  deriving DecidableEq

/-- A Commit that this member has built: the message, and the epoch it leads to. -/
structure PendingCommit (K : Type) where
  message : Bytes
  next : EpochState K
  deriving DecidableEq

/-- What a snapshot of a group holds. -/
structure GroupState (K : Type) where
  groupId : String
  selfIndex : ℕ
  epoch : EpochState K
  pending : Option (PendingCommit K)
  deriving DecidableEq

/-- A prior epoch, kept for messages that arrive late. -/
structure EpochRecord where
  id : ℕ
  data : Bytes
  deriving DecidableEq

/-- A loaded group, with the prior epochs that its storage has yet to insert or update. -/
structure Group (K : Type) extends GroupState K where
  inserts : List EpochRecord := []
  updates : List EpochRecord := []
  deriving DecidableEq

structure CommitOutput (K : Type) where
  message : Bytes
  welcomes : List Bytes
  next : EpochState K
  deriving DecidableEq

/-- A message of the current or a prior epoch, opened. -/
inductive Opened (K : Type) where
  | application (sender : ℕ) (authenticatedData data : Bytes) (secrets : K)
    (update : Option EpochRecord)
  | commit (source : CommitSource) (proposals : ProposalBundle)
  | other (secrets : K)

/-- What can be read of a message without a group. -/
structure MessageHeader where
  epoch : Option ℕ
  cipherSuite : Option ℕ
  deriving DecidableEq

/-- What mls-rs, SHA-256 and serde_json compute. The last argument of what draws random numbers is
the draw. -/
structure MlsRs (K : Type) where
  serde : Serde
  /-- SHA-256 in lower-case hexadecimal digits. -/
  digest : Bytes → String
  header : Bytes → Option MessageHeader
  createGroup : String → ExtensionList → ℕ → Option (EpochState K)
  /-- The group id and the own leaf that a Welcome leads to. -/
  joinGroup : Bytes → Option (String × ℕ × EpochState K)
  openMessage : GroupState K → Bytes → Option (Opened K)
  /-- The epoch that a Commit leads to; nothing inside when it removes this member, whose group then
  stays as it is. -/
  applyCommit : GroupState K → Bytes → ProposalBundle → Option (Option (EpochState K))
  acceptsProposals : GroupState K → ProposalBundle → Bool
  buildCommit : GroupState K → ProposalBundle → Bytes → ℕ → Option (CommitOutput K)
  encrypt : EpochState K → Bytes → Bytes → ℕ → Option (Bytes × K)
  exportHistorySecret : EpochState K → Option Bytes
  priorEpoch : EpochState K → Bytes

/-- What the application is told about a processed message. -/
inductive ReceivedMessage where
  | applicationMessage (sender : ℕ) (authenticatedData data : Bytes)
  | commit
  | other
  deriving DecidableEq

namespace Group

variable {K : Type} (mls : MlsRs K) (g : Group K)

def currentEpoch : ℕ := g.epoch.number

def hasPendingCommit : Bool := g.pending.isSome

/-- The group moves on to an epoch and keeps the one it leaves. -/
def enterEpoch (next : EpochState K) : Group K :=
  { g with
    epoch := next
    pending := none
    inserts := g.inserts ++ [⟨g.epoch.number, mls.priorEpoch g.epoch⟩] }

/-- `commit_builder()…build()`. -/
def buildCommit (proposals : ProposalBundle) (authenticatedData : Bytes) (entropy : ℕ) :
    Option (CommitOutput K × Group K) :=
  if g.pending.isSome then none
  else
    match filterProposals mls.serde .send (.existingMember g.selfIndex) g.epoch.roster
        g.epoch.extensions proposals with
    | .error _ => none
    | .ok bundle =>
      match mls.buildCommit g.toGroupState bundle authenticatedData entropy with
      | none => none
      | some output =>
        match commitOptions mls.serde output.next.roster output.next.extensions with
        | .error _ => none
        | .ok _ => some (output, { g with pending := some ⟨output.message, output.next⟩ })

variable {mls g} in
/-- A Commit is built by the host, with nothing pending, and leads to a group with a host. -/
theorem buildCommit_eq_some {proposals : ProposalBundle} {authenticatedData : Bytes} {entropy : ℕ}
    {output : CommitOutput K} {g' : Group K}
    (h : g.buildCommit mls proposals authenticatedData entropy = some (output, g')) :
    g.pending = none ∧ g' = { g with pending := some ⟨output.message, output.next⟩ } ∧
      (∃ host, Mls.validateHost mls.serde g.epoch.roster g.epoch.extensions = .ok host ∧
        host.hostLeaf = g.selfIndex) ∧
      ∃ next, Mls.validateHost mls.serde output.next.roster output.next.extensions = .ok next := by
  unfold buildCommit at h
  split at h
  · cases h
  rename_i hpending
  split at h
  · cases h
  rename_i hfilter
  split at h
  · cases h
  split at h
  · cases h
  rename_i hoptions
  cases h
  obtain ⟨-, host, hhost, hsource⟩ := filterProposals_eq_ok hfilter
  obtain ⟨next, hnext, -⟩ := commitOptions_eq_ok hoptions
  refine ⟨by simpa using hpending, rfl, ⟨host, hhost, ?_⟩, next, hnext⟩
  injection hsource with hleaf
  exact hleaf.symm

def applyPendingCommit : Option (Group K) :=
  g.pending.map fun pending ↦ g.enterEpoch mls pending.next

def clearPendingCommit : Group K := { g with pending := none }

def withSecrets (secrets : K) : Group K := { g with epoch := { g.epoch with secrets } }

def encryptApplicationMessage (payload authenticatedData : Bytes) (entropy : ℕ) :
    Option (Bytes × Group K) :=
  (mls.encrypt g.epoch payload authenticatedData entropy).map fun (message, secrets) ↦
    (message, g.withSecrets secrets)

/-- A message that is not the pending Commit. -/
@[grind =] def receive (message : Bytes) : Option (ReceivedMessage × Group K) :=
  match mls.openMessage g.toGroupState message with
  | none => none
  | some (.application sender authenticatedData data secrets update) =>
    some (.applicationMessage sender authenticatedData data,
      { g.withSecrets secrets with updates := g.updates ++ update.toList })
  | some (.commit source proposals) =>
    if source = .existingMember g.selfIndex then none
    else
      match filterProposals mls.serde .receive source g.epoch.roster g.epoch.extensions
          proposals with
      | .error _ => none
      | .ok bundle =>
        match mls.applyCommit g.toGroupState message bundle with
        | none => none
        | some none => some (.commit, g)
        | some (some next) => some (.commit, g.enterEpoch mls next)
  | some (.other secrets) => some (.other, g.withSecrets secrets)

/-- `process_incoming_message`. -/
@[grind =] def processIncomingMessage (message : Bytes) : Option (ReceivedMessage × Group K) :=
  match g.pending with
  | some pending =>
    if pending.message = message then some (.commit, g.enterEpoch mls pending.next)
    else g.receive mls message
  | none => g.receive mls message

/-- `validate_host` of a group's roster and context. -/
def validateHost : Except HostRuleError HostContext :=
  Mls.validateHost mls.serde g.epoch.roster g.epoch.extensions

end Group

/-- `client.create_group_with_id`: this member is the first leaf. -/
def MlsRs.create {K : Type} (mls : MlsRs K) (roomId : String) (extensions : ExtensionList)
    (entropy : ℕ) : Option (Group K) :=
  (mls.createGroup roomId extensions entropy).map fun epoch ↦
    { groupId := roomId, selfIndex := 0, epoch, pending := none }

/-- `client.join_group`. -/
def MlsRs.join {K : Type} (mls : MlsRs K) (welcome : Bytes) : Option (Group K) :=
  (mls.joinGroup welcome).map fun (groupId, selfIndex, epoch) ↦
    { groupId, selfIndex, epoch, pending := none }

end MultAIplayer.Mls
