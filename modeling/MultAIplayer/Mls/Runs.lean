import MultAIplayer.Lib.Machine
import MultAIplayer.Mls.Operations

/-!
# Runs of the engine

One action is one call of the engine, or a restart, with what the environment decides for it. The
events are the results of the calls.

## Calls that complete

`attempt` splits an operation where it first changes something. A call completes when it fails
before that point or not at all: `EngineOp.completes`, which is decided in the state before the
call. `EngineOp.commitCompletes` asks it only of the operations that build, apply or give up a
Commit.
-/

namespace MultAIplayer.Mls

inductive EngineOp where
  | createGroup (roomId : String)
  | joinWelcome (roomId : String) (welcome : Bytes)
  | joinWelcomeForInvite (welcome : Bytes) (admission : JoinAdmissionMetadata)
    (responseHash : String)
  | openGroup (roomId : String)
  | forgetGroup (roomId : String)
  | forgetCorruptGroup (roomId : String)
  | addMember (roomId : String) (keyPackage : Bytes)
    (welcomeMetadata : Option WelcomeRetryMetadata)
  | addMemberForInvite (roomId : String) (keyPackage : Bytes)
    (welcomeMetadata : WelcomeRetryMetadata) (capabilityHandle bindingHash : String)
  | removeMember (roomId : String) (leaf : ℕ)
  | transferHost (roomId : String) (nextLeaf : ℕ) (nextDeviceId transferId : String)
  | encryptApplication (roomId messageId : String) (payload : Bytes)
    (input : ApplicationAuthenticatedDataInput)
  | processIncoming (roomId : String) (message : Bytes)
  | publishSucceeded (roomId messageId : String)
  | clearPendingCommit (roomId messageId : String)
  | retireStaleApplication (roomId messageId : String)
  | denyInvite (capabilityHandle bindingHash keyPackageHash : String)
    (responseBinding : CapabilityBinding) (responseMac : String)
  | restart
  deriving DecidableEq

inductive EngineOutput where
  | epoch (epoch : ℕ)
  | added (output : AddMemberOutput)
  | commit (output : OutboundCommit)
  | application (output : OutboundApplication)
  | received (output : Option ApplicationOutput)
  | outboxId (id : String)
  | done
  deriving DecidableEq

namespace Engine

variable {K : Type} (lib : Libraries K) (e : Engine K)

/-- A result as one of the engine's outputs. -/
def asOutput {α : Type} (output : α → EngineOutput) (result : Engine K × Except EngineError α) :
    Engine K × Except EngineError EngineOutput := (result.1, result.2.map output)

def perform (op : EngineOp) (call : Call) : Engine K × Except EngineError EngineOutput :=
  match op with
  | .createGroup roomId => asOutput .epoch (e.createGroup lib call roomId)
  | .joinWelcome roomId welcome => asOutput .epoch (e.joinWelcome lib call roomId welcome)
  | .joinWelcomeForInvite welcome admission responseHash =>
    asOutput .epoch (e.joinWelcomeForInvite lib call welcome admission responseHash)
  | .openGroup roomId => asOutput .epoch (e.openGroup lib call roomId)
  | .forgetGroup roomId => asOutput (fun _ ↦ .done) (e.forgetGroup call roomId)
  | .forgetCorruptGroup roomId => asOutput (fun _ ↦ .done) (e.forgetCorruptGroup lib call roomId)
  | .addMember roomId keyPackage welcomeMetadata =>
    asOutput .added (e.addMemberWithWelcomeMetadata lib call roomId keyPackage welcomeMetadata)
  | .addMemberForInvite roomId keyPackage welcomeMetadata capabilityHandle bindingHash =>
    asOutput .added (e.addMemberForInvite lib call roomId keyPackage welcomeMetadata
      capabilityHandle bindingHash)
  | .removeMember roomId leaf => asOutput .commit (e.removeMember lib call roomId leaf)
  | .transferHost roomId nextLeaf nextDeviceId transferId =>
    asOutput .commit (e.transferHost lib call roomId nextLeaf nextDeviceId transferId)
  | .encryptApplication roomId messageId payload input =>
    asOutput .application (e.encryptApplication lib call roomId messageId payload input)
  | .processIncoming roomId message =>
    asOutput .received (e.processIncoming lib call roomId message)
  | .publishSucceeded roomId messageId =>
    asOutput .epoch (e.publishSucceeded lib call roomId messageId)
  | .clearPendingCommit roomId messageId =>
    asOutput .epoch (e.clearPendingCommit call roomId messageId)
  | .retireStaleApplication roomId messageId =>
    asOutput .epoch (e.retireStaleApplication call roomId messageId)
  | .denyInvite capabilityHandle bindingHash keyPackageHash responseBinding responseMac =>
    asOutput .outboxId (e.denyInvite lib call capabilityHandle bindingHash keyPackageHash
      responseBinding responseMac)
  | .restart => (e.restart, .ok .done)

@[grind =]
def step (action : EngineOp × Call) : Engine K × List (Except EngineError EngineOutput) :=
  let result := e.perform lib action.1 action.2
  (result.1, [result.2])

/-- The engine of a device on an empty database. -/
def initial (selfDeviceId selfUserId : String) : Engine K := { selfDeviceId, selfUserId }

end Engine

/-! ### Calls that complete -/

/-- A property of what an operation has prepared, when it gets that far. -/
def ifPrepared {α : Type} (prepared : Except EngineError α) (p : α → Bool) : Bool :=
  match prepared with
  | .error _ => true
  | .ok a => p a

@[simp] theorem ifPrepared_ok {α : Type} (a : α) (p : α → Bool) : ifPrepared (.ok a) p = p a := rfl

namespace EngineOp

variable {K : Type} (lib : Libraries K) (e : Engine K) (call : Call)

/-- The records of a Commit that is built are staged and written. -/
def addCompletes (roomId : String) (keyPackage : Bytes)
    (welcomeMetadata : Option WelcomeRetryMetadata) (receipt : Option InviteConsumption) : Bool :=
  ifPrepared (e.prepareAddMember lib call roomId keyPackage receipt) fun (output, g) ↦
    ((e.setGroup roomId g).persistAddMember lib call roomId welcomeMetadata receipt g output).isOk

/-- An operation that builds, applies or gives up a Commit fails before it touches the group, or not
at all. -/
@[grind =] def commitCompletes (op : EngineOp) : Bool :=
  match op with
  | .addMember roomId keyPackage welcomeMetadata =>
    addCompletes lib e call roomId keyPackage welcomeMetadata none
  | .addMemberForInvite roomId keyPackage welcomeMetadata capabilityHandle bindingHash =>
    match e.storage.inviteReceipt call capabilityHandle with
    | .ok none => addCompletes lib e call roomId keyPackage (some welcomeMetadata)
      (some (inviteConsumption welcomeMetadata capabilityHandle bindingHash))
    | _ => true
  | .removeMember roomId leaf =>
    ifPrepared (e.prepareRemoveMember lib call roomId leaf) fun (output, g) ↦
      ((e.setGroup roomId g).persistRemoveMember lib call roomId g output).isOk
  | .transferHost roomId nextLeaf nextDeviceId transferId =>
    ifPrepared (e.prepareTransferHost lib call roomId nextLeaf nextDeviceId transferId)
      fun (output, g) ↦ ((e.setGroup roomId g).persistTransferHost lib call roomId
        (Engine.handoffRecord nextLeaf nextDeviceId transferId) transferId g output).isOk
  | .publishSucceeded roomId messageId =>
    ifPrepared (e.preparePublished call roomId messageId) fun item ↦
      !item.kind.isCommit || ifPrepared (e.preparePublish lib roomId item) fun g ↦
        (e.finishPublish lib call roomId messageId g).2.isOk
  | .clearPendingCommit roomId messageId =>
    ifPrepared (e.prepareClear call roomId messageId) fun (item, g) ↦
      (e.finishClear call roomId messageId item g).2.isOk
  | _ => true

/-- An outbox item that is deleted belongs to a room whose group is loaded. -/
def deleteCompletes (a : StorageAccess) (roomId messageId : String) : Bool :=
  match e.storage.deleteOutbox call a messageId with
  | .error _ => true
  | .ok _ => e.groups.has roomId

/-- An operation on a room fails before it changes anything, or not at all. -/
@[grind =] def completes (op : EngineOp) : Bool :=
  op.commitCompletes lib e call &&
  match op with
  | .encryptApplication roomId messageId payload input =>
    ifPrepared (e.prepareApplication lib call roomId messageId payload input)
      fun (message, authenticatedData, g) ↦
        (e.finishApplication lib call roomId messageId message authenticatedData g).2.isOk
  | .processIncoming roomId message =>
    ifPrepared (e.prepareIncoming lib call roomId message) fun prepared ↦
      (e.finishIncoming lib call roomId prepared).2.isOk
  | .publishSucceeded roomId messageId =>
    ifPrepared (e.preparePublished call roomId messageId) fun item ↦
      item.kind.isCommit || deleteCompletes e call .deletePublishedOutbox roomId messageId
  | .retireStaleApplication roomId messageId =>
    ifPrepared (e.prepareRetire call roomId messageId) fun _ ↦
      deleteCompletes e call .deleteStaleOutbox roomId messageId
  | _ => true

end EngineOp

end MultAIplayer.Mls
