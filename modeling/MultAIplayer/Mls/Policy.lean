import MultAIplayer.Lib.Text

/-!
# The MLS policy

What a member's credential and a room's host context must look like. Both are JSON inside MLS
structures; `Serde` stands for the decoder.
-/

namespace MultAIplayer.Mls

abbrev Bytes := List UInt8

/-- The application identity in a member's basic credential. -/
structure BasicAppCredential where
  githubUserId : String
  deviceId : String
  deriving DecidableEq

/-- Who is the host of a room: the content of the group context extension. -/
structure HostContext where
  version : ℕ
  hostLeaf : ℕ
  hostDeviceId : String
  transferId : Option String
  deriving DecidableEq

inductive PolicyError where
  | unpinnedCiphersuite
  | invalidCredential
  | invalidHostContext
  | nonHostCommit
  deriving DecidableEq

/-- The JSON decoders and the one encoder that the crate uses on authenticated values. -/
structure Serde where
  credential : Bytes → Option BasicAppCredential
  hostContext : Bytes → Option HostContext
  encodeHostContext : HostContext → Bytes

def mlsCiphersuiteId : ℕ := 2
def hostContextExtensionType : ℕ := 0xff01
def maxIdLen : ℕ := 128

def validatePinnedSuite (suite : ℕ) : Except PolicyError Unit :=
  if suite = mlsCiphersuiteId then .ok () else .error .unpinnedCiphersuite

/-- Whether every character is an ASCII letter, a digit or one of the extra ones. -/
def asciiIdChars (extra : List Char) (value : String) : Bool :=
  value.toList.all fun c ↦ c.isAlphanum || extra.contains c

def validId (value : String) : Bool :=
  !value.isEmpty && Text.utf8Length value ≤ maxIdLen && asciiIdChars ['-', '_', ':'] value

def validateCredential (serde : Serde) (bytes : Bytes) : Except PolicyError BasicAppCredential :=
  if bytes.length > 512 then .error .invalidCredential
  else match serde.credential bytes with
    | none => .error .invalidCredential
    | some value =>
      if !validId value.githubUserId || !validId value.deviceId then .error .invalidCredential
      else .ok value

def validateHostCommit (senderLeaf : ℕ) (context : HostContext) : Except PolicyError Unit :=
  if context.version != 2 || !validId context.hostDeviceId ||
      context.transferId.any fun transferId ↦ !validId transferId then
    .error .invalidHostContext
  else if senderLeaf = context.hostLeaf then .ok () else .error .nonHostCommit

/-- A credential that passes names a user and a device by well-formed ids. -/
theorem validateCredential_eq_ok {serde : Serde} {bytes : Bytes} {value : BasicAppCredential}
    (h : validateCredential serde bytes = .ok value) :
    serde.credential bytes = some value ∧ validId value.githubUserId = true ∧
      validId value.deviceId = true := by
  unfold validateCredential at h
  split at h
  · cases h
  split at h
  · cases h
  · rename_i credential hcredential
    split at h
    · cases h
    · rename_i hvalid
      cases h
      simp only [Bool.or_eq_true, Bool.not_eq_true', not_or, Bool.not_eq_false] at hvalid
      exact ⟨hcredential, hvalid⟩

end MultAIplayer.Mls
