import MultAIplayer.Lib.Json
import MultAIplayer.Lib.IsoDate
import MultAIplayer.Lib.Text
import MultAIplayer.Protocol.Records
import Mathlib.Algebra.Ring.Nat

/-!
# Relay messages: schema and text

What the protocol schemas of `relay-messages.ts` accept, and the JSON text of a relay message. A
parsed message lists its keys in the order of the schema, and an absent optional key is left out.

The text determines the message (`MlsRelayMessage.stringify_injective`), also when the timestamp of
a Commit is left out (`commitText_inj`); digests of these texts are what makes a publish idempotent.
-/

namespace MultAIplayer

/-! ### Identifiers and numbers -/

def maxRelayIdChars : ℕ := 160
def maxEnvelopeIdChars : ℕ := 160
def maxDeviceIdChars : ℕ := 160
def maxUserIdChars : ℕ := 160
def maxDisplayNameChars : ℕ := 120
def maxRoomNameChars : ℕ := 160

/-- A character of `relayIdPattern`, `/^[A-Za-z0-9_-]+$/`. -/
def isRelayIdChar (c : Char) : Bool := c.isAlphanum || c = '_' || c = '-'

/-- `relayIdPattern`. -/
@[grind =]
def matchesRelayIdPattern (s : String) : Bool := s.toList ≠ [] && s.toList.all isRelayIdChar

/-- `z.string().min(lo).max(hi)`. -/
def boundedString (lo hi : ℕ) (s : String) : Bool :=
  lo ≤ Text.utf16Length s && Text.utf16Length s ≤ hi

/-- The schemas `TeamId` and `RoomId`. -/
def isRelayId (s : String) : Bool := boundedString 3 maxRelayIdChars s && matchesRelayIdPattern s

/-- The schema `DeviceId`. -/
def isDeviceId (s : String) : Bool := boundedString 8 maxDeviceIdChars s

/-- The schema `UserId`. -/
def isUserId (s : String) : Bool := boundedString 1 maxUserIdChars s

/-- `Number.MAX_SAFE_INTEGER`, the bound of `z.number().int()`. -/
def maxSafeInteger : ℕ := 2 ^ 53 - 1

/-- `z.number().int().nonnegative()`. -/
def isCount (n : ℕ) : Bool := n ≤ maxSafeInteger

def isLowerHex (c : Char) : Bool := c.isDigit || ('a' ≤ c && c ≤ 'f')

/-- `/^[0-9a-f]{64}$/`. -/
def isHexDigest (s : String) : Bool := s.toList.length = 64 && s.toList.all isLowerHex

/-- `/^sha256:[0-9a-f]{64}$/`. -/
def isSha256Digest (s : String) : Bool :=
  s.toList.take 7 = "sha256:".toList && (s.toList.drop 7).length = 64 &&
    (s.toList.drop 7).all isLowerHex

/-- The schema `CanonicalPaddedBase64`. -/
def isBase64Field (s : String) : Bool := 4 ≤ Text.utf16Length s && Text.isPaddedBase64 s

/-! ### The schema of a relay message -/

/-- The schema `HostTransferAuthorization`. -/
@[grind =] def HostTransferAuthorization.isValid (a : HostTransferAuthorization) : Bool :=
  a.version = 2 && boundedString 1 maxEnvelopeIdChars a.transferId && isRelayId a.roomId &&
    isHexDigest a.commitMessageId && isCount a.parentEpoch && isUserId a.outgoingHostUserId &&
    isDeviceId a.outgoingHostDeviceId && isUserId a.nextHostUserId &&
    isDeviceId a.nextHostDeviceId && isCount a.nextHostLeaf && isBase64Field a.signatureDer &&
    isBase64Field a.publicKeySpkiDer

namespace MlsRelayMessage

variable (m : MlsRelayMessage)

/-- `commitEffect === "host_handoff"`. -/
def isHostHandoff : Bool := m.commitEffect = some .hostHandoff

/-- The refinement: a handoff, and nothing else, names the next host, and only a Commit can. -/
def handoffFieldsAgree : Bool :=
  m.isHostHandoff = (m.nextHostUserId.isSome && m.nextHostDeviceId.isSome &&
      m.hostTransferAuthorization.isSome) &&
    !(m.isHostHandoff && m.messageType ≠ .commit)

/-- The schema `MlsRelayMessage`. -/
@[grind =] def isValid : Bool :=
  boundedString 1 maxEnvelopeIdChars m.id && isRelayId m.teamId && isRelayId m.roomId &&
    isDeviceId m.senderDeviceId && isUserId m.senderUserId && (IsoDate.parse m.createdAt).isSome &&
    isCount m.epochHint && isBase64Field m.mlsMessage && m.nextHostUserId.all isUserId &&
    m.nextHostDeviceId.all isDeviceId &&
    m.hostTransferAuthorization.all HostTransferAuthorization.isValid && m.handoffFieldsAgree

end MlsRelayMessage

/-! ### Text -/

def MlsMessageType.text : MlsMessageType → String
  | .application => "application"
  | .commit => "commit"

def CommitEffect.text : CommitEffect → String
  | .hostHandoff => "host_handoff"

/-- The fields that a host signs, in the order of the schema. -/
def HostTransferAuthorization.signedFields (a : HostTransferAuthorization) :
    List (String × Option Json) :=
  [("version", some (.num a.version)), ("transferId", some (.str a.transferId)),
    ("roomId", some (.str a.roomId)), ("commitMessageId", some (.str a.commitMessageId)),
    ("parentEpoch", some (.num a.parentEpoch)),
    ("outgoingHostUserId", some (.str a.outgoingHostUserId)),
    ("outgoingHostDeviceId", some (.str a.outgoingHostDeviceId)),
    ("nextHostUserId", some (.str a.nextHostUserId)),
    ("nextHostDeviceId", some (.str a.nextHostDeviceId)),
    ("nextHostLeaf", some (.num a.nextHostLeaf))]

@[grind =] def HostTransferAuthorization.jsonFields (a : HostTransferAuthorization) :
    List (String × Option Json) :=
  a.signedFields ++ [("signatureDer", some (.str a.signatureDer)),
    ("publicKeySpkiDer", some (.str a.publicKeySpkiDer))]

def HostTransferAuthorization.toJson (a : HostTransferAuthorization) : Json :=
  .obj (Json.fields a.jsonFields)

namespace MlsRelayMessage

/-- The fields of a message with or without its timestamp. -/
@[grind =]
def jsonFields (m : MlsRelayMessage) (createdAt : Option Json) : List (String × Option Json) :=
  [("id", some (.str m.id)), ("teamId", some (.str m.teamId)), ("roomId", some (.str m.roomId)),
    ("senderDeviceId", some (.str m.senderDeviceId)),
    ("senderUserId", some (.str m.senderUserId)), ("createdAt", createdAt),
    ("messageType", some (.str m.messageType.text)), ("epochHint", some (.num m.epochHint)),
    ("mlsMessage", some (.str m.mlsMessage)),
    ("commitEffect", m.commitEffect.map fun e ↦ .str e.text),
    ("nextHostUserId", m.nextHostUserId.map .str),
    ("nextHostDeviceId", m.nextHostDeviceId.map .str),
    ("hostTransferAuthorization", m.hostTransferAuthorization.map (·.toJson))]

/-- `JSON.stringify(message)`. -/
def stringify (m : MlsRelayMessage) : String :=
  Json.stringify (.obj (Json.fields (m.jsonFields (some (.str m.createdAt)))))

/-- `JSON.stringify` of a message without its `createdAt`. -/
def commitText (m : MlsRelayMessage) : String :=
  Json.stringify (.obj (Json.fields (m.jsonFields none)))

/-- The keys of the schema, in order. -/
def schemaKeys : List String :=
  ["id", "teamId", "roomId", "senderDeviceId", "senderUserId", "createdAt", "messageType",
    "epochHint", "mlsMessage", "commitEffect", "nextHostUserId", "nextHostDeviceId",
    "hostTransferAuthorization"]

theorem map_fst_jsonFields (m : MlsRelayMessage) (c : Option Json) :
    (m.jsonFields c).map Prod.fst = schemaKeys := rfl

theorem nodup_jsonFields (m : MlsRelayMessage) (c : Option Json) :
    ((m.jsonFields c).map Prod.fst).Nodup := by
  rw [map_fst_jsonFields]
  decide

end MlsRelayMessage

theorem MlsMessageType.text_injective : Function.Injective MlsMessageType.text := by
  intro a b h
  cases a <;> cases b <;> first | rfl | exact absurd h (by decide)

theorem HostTransferAuthorization.toJson_injective :
    Function.Injective HostTransferAuthorization.toJson := by
  intro a b h
  have hkeys : a.jsonFields.map Prod.fst = ["version", "transferId", "roomId", "commitMessageId",
      "parentEpoch", "outgoingHostUserId", "outgoingHostDeviceId", "nextHostUserId",
      "nextHostDeviceId", "nextHostLeaf", "signatureDer", "publicKeySpkiDer"] := rfl
  have hfields := Json.fields_inj (l := a.jsonFields) (m := b.jsonFields) rfl
    (by rw [hkeys]; decide) (JsonTerm.obj.inj h)
  simp only [jsonFields, signedFields, List.cons_append, List.nil_append, List.cons.injEq, Prod.mk.injEq,
    true_and, and_true, Option.some.injEq, JsonTerm.num.injEq, JsonTerm.str.injEq] at hfields
  cases a
  cases b
  simp_all

namespace MlsRelayMessage

/-- Equal fields, up to the timestamp, make equal messages up to the timestamp. -/
theorem eq_of_jsonFields {m n : MlsRelayMessage} {c d : Option Json}
    (h : m.jsonFields c = n.jsonFields d) : { m with createdAt := n.createdAt } = n := by
  simp only [jsonFields, List.cons.injEq, Prod.mk.injEq, true_and, and_true, Option.some.injEq,
    JsonTerm.num.injEq, JsonTerm.str.injEq] at h
  obtain ⟨hid, hteam, hroom, hdevice, huser, -, htype, hepoch, hbytes, heffect, hnextUser,
    hnextDevice, hauth⟩ := h
  have htype := MlsMessageType.text_injective htype
  have heffect : m.commitEffect = n.commitEffect := by
    cases hm : m.commitEffect with
    | none => cases hn : n.commitEffect <;> simp_all
    | some e => cases hn : n.commitEffect <;> simp_all
  have hnextUser := Option.map_injective (fun _ _ ↦ JsonTerm.str.inj) hnextUser
  have hnextDevice := Option.map_injective (fun _ _ ↦ JsonTerm.str.inj) hnextDevice
  have hauth := Option.map_injective HostTransferAuthorization.toJson_injective hauth
  cases m
  cases n
  simp_all

/-- **The text of a message determines the message.** -/
theorem stringify_injective : Function.Injective stringify := by
  intro m n h
  have hfields := Json.fields_inj (l := m.jsonFields (some (.str m.createdAt)))
    (m := n.jsonFields (some (.str n.createdAt))) rfl (nodup_jsonFields m _)
    (JsonTerm.obj.inj (Json.stringify_injective h))
  have hcreated : m.createdAt = n.createdAt := by
    have h' := hfields
    simp only [jsonFields, List.cons.injEq, Prod.mk.injEq, Option.some.injEq,
      JsonTerm.str.injEq, true_and] at h'
    exact h'.2.2.2.2.2.1
  have heq := eq_of_jsonFields hfields
  rw [← hcreated] at heq
  exact heq

/-- Without the timestamp, the text determines everything else. -/
theorem commitText_inj {m n : MlsRelayMessage} (h : m.commitText = n.commitText) :
    { m with createdAt := n.createdAt } = n :=
  eq_of_jsonFields (Json.fields_inj rfl (nodup_jsonFields m _)
    (JsonTerm.obj.inj (Json.stringify_injective h)))

theorem commitText_eq_of_eq {m n : MlsRelayMessage} (h : { m with createdAt := n.createdAt } = n) :
    m.commitText = n.commitText := by
  rw [← h]
  rfl

end MlsRelayMessage

end MultAIplayer
