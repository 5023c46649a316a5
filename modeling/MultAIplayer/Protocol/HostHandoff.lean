import MultAIplayer.Protocol.Records

/-!
# Host handoffs

The records of a host handoff that both clients exchange: offers, requests of candidates and
informational acceptances. What an offer says of the project and of Codex is left out, since no
step of a handoff reads it.
-/

namespace MultAIplayer

/-- An id of a user or device. The schemas admit no empty one, so that a test for an id that is not
empty is a test that there is one. -/
abbrev MemberId := { s : String // s ≠ "" }

inductive HostHandoffStatus
  | available
  | requested
  | accepted
  deriving DecidableEq

/-- Who asks to be the next host, as one client and one leaf of the group. -/
structure CandidateBinding where
  userId : MemberId
  deviceId : MemberId
  leaf : ℕ
  deriving DecidableEq

structure HostHandoffPlaintextPayload where
  id : String
  fromUserId : String
  status : HostHandoffStatus
  candidateUserId : Option MemberId := none
  candidateDeviceId : Option MemberId := none
  candidateLeaf : Option ℕ := none
  acceptedByUserId : Option String := none
  acceptedAt : Option String := none
  deriving DecidableEq

structure HostHandoffRequestPlaintextPayload where
  offerId : String
  candidate : CandidateBinding
  deriving DecidableEq

structure HostHandoffAcceptedPlaintextPayload where
  offerId : String
  host : CandidateBinding
  deriving DecidableEq

/-- The three optional fields of a candidate, read together. -/
def candidateOf : Option MemberId → Option MemberId → Option ℕ → Option CandidateBinding
  | some userId, some deviceId, some leaf => some { userId, deviceId, leaf }
  | _, _, _ => none

structure RosterMember where
  leaf : ℕ
  githubUserId : String
  deviceId : String
  deriving DecidableEq

/-- What a client reads of its MLS group after a transfer. -/
structure HostGroupState where
  roster : List RosterMember
  epoch : ℕ
  hostLeaf : ℕ
  hostDeviceId : String
  hostTransferId : Option String
  deriving DecidableEq

end MultAIplayer
