import MultAIplayer.Lib.Framing
import MultAIplayer.Mls.KeyedStorage

/-!
# Capabilities of invites

The binding of an invite is written as one text of bytes (`encode_capability_binding`) and
authenticated under a key that the capability of the invite yields, one for requests and one for
responses (`invite_capability.rs`). The encoding is injective on the bindings that it accepts
(`encodeCapabilityBinding_inj`), since each of its parts says where it ends (`Lib.Framing`).

HMAC-SHA256 and the hash that makes a verifier of a capability are functions of unknown values here;
an ideal one computes different values from different arguments (`CapabilityCrypto.Ideal`).
-/

namespace MultAIplayer.Mls

open Framing

/-- `str::as_bytes`. -/
def utf8 (text : String) : Bytes := text.toList.flatMap String.utf8EncodeChar

theorem utf8_injective : Function.Injective utf8 := by
  intro a b h
  have hbytes : a.toList.utf8Encode = b.toList.utf8Encode := congrArg List.toByteArray h
  rwa [String.utf8Encode_toList, String.utf8Encode_toList, String.toByteArray_inj] at hbytes

theorem length_utf8 (text : String) : (utf8 text).length = Text.utf8Length text := by
  rw [utf8, List.length_flatMap, Text.utf8Length]
  exact congrArg List.sum (List.map_congr_left fun c _ ↦ String.length_utf8EncodeChar c)

inductive CapabilityError where
  | invalidBinding
  | invalidMac
  deriving DecidableEq

/-! ### Encoding a binding -/

def bindingPrefix : Bytes := utf8 "multaiplayer:invite-capability-binding:v3\x00"

def encodeField (value : String) : Except CapabilityError Bytes :=
  if (utf8 value).length < 256 ^ 4 then .ok (lengthPrefixed 4 (utf8 value))
  else .error .invalidBinding

def encodeOptionalField : Option String → Except CapabilityError Bytes
  | some value => (encodeField value).map (1 :: ·)
  | none => .ok [0]

namespace CapabilityBinding

/-- The fields that are written under their lengths, in this order. -/
def fields (binding : CapabilityBinding) : List String :=
  [binding.inviteId, binding.teamId, binding.roomId, binding.keyPackageHash, binding.requestId,
    binding.requestNonce, binding.requesterUserId, binding.requesterDeviceId, binding.hostUserId,
    binding.hostDeviceId, binding.expiresAt]

def phaseByte (phase : String) : Bytes := [if phase = "request" then 0 else 1]

end CapabilityBinding

def encodeCapabilityBinding (binding : CapabilityBinding) : Except CapabilityError Bytes :=
  if !binding.encodes then .error .invalidBinding
  else do
    let fields ← binding.fields.mapM encodeField
    let status ← encodeOptionalField binding.status
    let decidedAt ← encodeOptionalField binding.decidedAt
    pure (bindingPrefix ++ UInt8.ofNat binding.version ::
      (CapabilityBinding.phaseByte binding.phase ++ beBytes 8 binding.keyEpoch ++ fields.flatten ++
        status ++ decidedAt))

/-- What is written for a field, and for one that may be missing. -/
def fieldBytes (value : String) : Bytes := lengthPrefixed 4 (utf8 value)

def optionalBytes (value : Option String) : Bytes := tagged fieldBytes value

/-- A field whose length fits. -/
def Fits (value : String) : Prop := (utf8 value).length < 256 ^ 4

theorem delimited_fieldBytes : Delimited Fits fieldBytes :=
  (delimited_lengthPrefixed 4).comap utf8_injective

theorem delimited_phaseByte : Delimited (fun phase ↦ phase = "request" ∨ phase = "response")
    CapabilityBinding.phaseByte := by
  refine Delimited.of_length (fun _ _ ↦ rfl) ?_
  rintro _ _ (rfl | rfl) (rfl | rfl) heq
  · rfl
  · exact absurd heq (by decide)
  · exact absurd heq (by decide)
  · rfl

theorem encodeField_eq_ok {value : String} {encoded : Bytes} (h : encodeField value = .ok encoded) :
    Fits value ∧ encoded = fieldBytes value := by
  unfold encodeField at h
  split at h
  · exact ⟨‹_›, (Except.ok.inj h).symm⟩
  · cases h

theorem mapM_encodeField_eq_ok {values : List String} {encoded : List Bytes}
    (h : values.mapM encodeField = .ok encoded) :
    (∀ value ∈ values, Fits value) ∧ encoded.flatten = values.flatMap fieldBytes := by
  induction values generalizing encoded with
  | nil =>
    obtain rfl : [] = encoded := Except.ok.inj h
    exact ⟨nofun, rfl⟩
  | cons value values ih =>
    rw [List.mapM_cons] at h
    rcases hfirst : encodeField value with error | first
    · rw [hfirst] at h
      cases h
    rcases hrest : values.mapM encodeField with error | rest
    · rw [hfirst, hrest] at h
      cases h
    rw [hfirst, hrest] at h
    obtain rfl : first :: rest = encoded := Except.ok.inj h
    obtain ⟨hfits, rfl⟩ := encodeField_eq_ok hfirst
    obtain ⟨hall, hflatten⟩ := ih hrest
    exact ⟨List.forall_mem_cons.mpr ⟨hfits, hall⟩, by rw [List.flatten_cons, hflatten]; rfl⟩

theorem encodeOptionalField_eq_ok {value : Option String} {encoded : Bytes}
    (h : encodeOptionalField value = .ok encoded) :
    (∀ text ∈ value, Fits text) ∧ encoded = optionalBytes value := by
  rcases value with _ | text
  · obtain rfl : [0] = encoded := Except.ok.inj h
    exact ⟨nofun, rfl⟩
  · unfold encodeOptionalField at h
    dsimp only at h
    rcases hfield : encodeField text with error | bytes
    · rw [hfield] at h
      cases h
    · rw [hfield] at h
      obtain rfl : 1 :: bytes = encoded := Except.ok.inj h
      obtain ⟨hfits, rfl⟩ := encodeField_eq_ok hfield
      exact ⟨fun _ hmem ↦ Option.some.inj hmem ▸ hfits, rfl⟩

namespace CapabilityBinding

/-- The parts of a binding that follow the version. -/
abbrev Parts := (((String × ℕ) × List String) × Option String) × Option String

def parts (binding : CapabilityBinding) : Parts :=
  ((((binding.phase, binding.keyEpoch), binding.fields), binding.status), binding.decidedAt)

def partBytes (p : Parts) : Bytes :=
  phaseByte p.1.1.1.1 ++ beBytes 8 p.1.1.1.2 ++ p.1.1.2.flatMap fieldBytes ++
    optionalBytes p.1.2 ++ optionalBytes p.2

/-- The parts of a binding that is encoded. -/
def AreParts (p : Parts) : Prop :=
  ((((p.1.1.1.1 = "request" ∨ p.1.1.1.1 = "response") ∧ p.1.1.1.2 < 256 ^ 8) ∧
    p.1.1.2.length = 11 ∧ ∀ value ∈ p.1.1.2, Fits value) ∧ ∀ text ∈ p.1.2, Fits text) ∧
      ∀ text ∈ p.2, Fits text

theorem delimited_partBytes : Delimited AreParts partBytes := by
  have hoptional : Delimited (fun o : Option String ↦ ∀ text ∈ o, Fits text) optionalBytes :=
    delimited_fieldBytes.tagged
  exact (((delimited_phaseByte.append (delimited_beBytes 8)).append
    (delimited_fieldBytes.flatMap 11)).append hoptional).append hoptional

theorem parts_injective {a b : CapabilityBinding} (hversion : a.version = b.version)
    (h : a.parts = b.parts) : a = b := by
  cases a
  cases b
  simp only [parts, fields, Prod.mk.injEq, List.cons.injEq] at h
  simp_all

end CapabilityBinding

/-- What is written for a binding that is encoded. -/
theorem encodeCapabilityBinding_eq_ok {binding : CapabilityBinding} {encoded : Bytes}
    (hepoch : binding.keyEpoch < 2 ^ 64) (h : encodeCapabilityBinding binding = .ok encoded) :
    binding.version = 3 ∧ CapabilityBinding.AreParts binding.parts ∧
      encoded = bindingPrefix ++ 3 :: CapabilityBinding.partBytes binding.parts := by
  unfold encodeCapabilityBinding at h
  split at h
  · cases h
  rename_i hvalid
  simp only [Bool.not_eq_true, Bool.not_eq_false', CapabilityBinding.encodes, Bool.and_eq_true, decide_eq_true_eq, Bool.or_eq_true]
    at hvalid
  obtain ⟨⟨⟨⟨hversion, hphase⟩, -⟩, -⟩, -⟩ := hvalid
  rcases hfields : binding.fields.mapM encodeField with error | fields
  · rw [hfields] at h
    cases h
  rcases hstatus : encodeOptionalField binding.status with error | status
  · rw [hfields, hstatus] at h
    cases h
  rcases hdecided : encodeOptionalField binding.decidedAt with error | decidedAt
  · rw [hfields, hstatus, hdecided] at h
    cases h
  rw [hfields, hstatus, hdecided] at h
  obtain ⟨hfits, hflatten⟩ := mapM_encodeField_eq_ok hfields
  obtain ⟨hstatusFits, rfl⟩ := encodeOptionalField_eq_ok hstatus
  obtain ⟨hdecidedFits, rfl⟩ := encodeOptionalField_eq_ok hdecided
  refine ⟨hversion, ⟨⟨⟨⟨hphase, hepoch⟩, rfl, hfits⟩, hstatusFits⟩, hdecidedFits⟩, ?_⟩
  rw [← Except.ok.inj h, hflatten, hversion]
  rfl

/-- **Different bindings are encoded differently.** -/
theorem encodeCapabilityBinding_inj {a b : CapabilityBinding} {encoded : Bytes}
    (ha : a.keyEpoch < 2 ^ 64) (hb : b.keyEpoch < 2 ^ 64)
    (hencodes : encodeCapabilityBinding a = .ok encoded)
    (hencodes' : encodeCapabilityBinding b = .ok encoded) : a = b := by
  obtain ⟨hversion, hparts, rfl⟩ := encodeCapabilityBinding_eq_ok ha hencodes
  obtain ⟨hversion', hparts', heq⟩ := encodeCapabilityBinding_eq_ok hb hencodes'
  have hbytes : CapabilityBinding.partBytes a.parts = CapabilityBinding.partBytes b.parts :=
    List.cons_injective (List.append_cancel_left heq)
  exact CapabilityBinding.parts_injective (hversion.trans hversion'.symm)
    (CapabilityBinding.delimited_partBytes.injective hparts hparts' hbytes)

/-! ### Authentication -/

inductive MacDomain where
  | request
  | response
  deriving DecidableEq

namespace MacDomain

def keyLabel : MacDomain → Bytes
  | request => utf8 "multaiplayer:invite-capability-request-key:v3\x00"
  | response => utf8 "multaiplayer:invite-capability-response-key:v3\x00"

def macLabel : MacDomain → Bytes
  | request => utf8 "multaiplayer:invite-capability-request-mac:v3\x00"
  | response => utf8 "multaiplayer:invite-capability-response-mac:v3\x00"

def phase : MacDomain → String
  | request => "request"
  | response => "response"

theorem keyLabel_injective : Function.Injective keyLabel := by
  intro a b h
  cases a <;> cases b
  · rfl
  · exact absurd (utf8_injective h) (by decide)
  · exact absurd (utf8_injective h) (by decide)
  · rfl

end MacDomain

/-- HMAC-SHA256, whose values are keys and tags, and SHA-256 of the label of a verifier and bytes. -/
structure CapabilityCrypto (δ : Type) where
  hmac : δ → Bytes → δ
  sha256 : Bytes → δ

namespace CapabilityCrypto

variable {δ : Type} [DecidableEq δ] (crypto : CapabilityCrypto δ)

/-- `derive_capability_verifier`. -/
def deriveCapabilityVerifier (raw : Bytes) : δ :=
  crypto.sha256 (utf8 "multaiplayer:invite-capability-verifier:v3\x00" ++ raw)

/-- `derive_mac_key`. -/
def deriveMacKey (verifier : δ) (domain : MacDomain) : δ := crypto.hmac verifier domain.keyLabel

def authenticate (verifier : δ) (binding : CapabilityBinding) (domain : MacDomain) :
    Except CapabilityError δ :=
  if binding.phase ≠ domain.phase then .error .invalidBinding
  else (encodeCapabilityBinding binding).map fun encoded ↦
    crypto.hmac (crypto.deriveMacKey verifier domain) (domain.macLabel ++ encoded)

def verify (verifier : δ) (binding : CapabilityBinding) (expected : δ) (domain : MacDomain) :
    Except CapabilityError Unit :=
  if binding.phase ≠ domain.phase then .error .invalidBinding
  else
    match encodeCapabilityBinding binding with
    | .error error => .error error
    | .ok encoded =>
      if crypto.hmac (crypto.deriveMacKey verifier domain) (domain.macLabel ++ encoded) = expected
      then .ok () else .error .invalidMac

def macBinding (raw : Bytes) (binding : CapabilityBinding) : Except CapabilityError δ :=
  crypto.authenticate (crypto.deriveCapabilityVerifier raw) binding .request

def verifyRequestBinding (verifier : δ) (binding : CapabilityBinding) (expected : δ) :
    Except CapabilityError Unit :=
  crypto.verify verifier binding expected .request

def macResponseBinding (verifier : δ) (binding : CapabilityBinding) : Except CapabilityError δ :=
  crypto.authenticate verifier binding .response

def verifyResponseBinding (verifier : δ) (binding : CapabilityBinding) (expected : δ) :
    Except CapabilityError Unit :=
  crypto.verify verifier binding expected .response

/-- A MAC whose values tell the key and the message. -/
def Ideal : Prop :=
  ∀ key key' message message', crypto.hmac key message = crypto.hmac key' message' →
    key = key' ∧ message = message'

variable {crypto}

/-- **A tag verifies for what it was made for**, and for nothing else. -/
theorem verify_authenticate_iff (hideal : crypto.Ideal) {verifier verifier' tag : δ}
    {binding binding' : CapabilityBinding} {domain domain' : MacDomain}
    (hepoch : binding.keyEpoch < 2 ^ 64) (hepoch' : binding'.keyEpoch < 2 ^ 64)
    (h : crypto.authenticate verifier binding domain = .ok tag) :
    crypto.verify verifier' binding' tag domain' = .ok () ↔
      verifier' = verifier ∧ binding' = binding ∧ domain' = domain := by
  unfold authenticate at h
  split at h
  · cases h
  rename_i hphase
  rcases hencoded : encodeCapabilityBinding binding with error | encoded
  · rw [hencoded] at h
    cases h
  rw [hencoded] at h
  obtain rfl : _ = tag := Except.ok.inj h
  constructor
  · intro hverify
    unfold verify at hverify
    split at hverify
    · cases hverify
    rcases hencoded' : encodeCapabilityBinding binding' with error | encoded'
    · rw [hencoded'] at hverify
      cases hverify
    rw [hencoded'] at hverify
    dsimp only at hverify
    split at hverify
    · rename_i htag
      obtain ⟨hkey, hmessage⟩ := hideal _ _ _ _ htag
      obtain ⟨rfl, hlabel⟩ := hideal _ _ _ _ hkey
      obtain rfl := MacDomain.keyLabel_injective hlabel
      obtain rfl := List.append_cancel_left hmessage
      exact ⟨rfl, encodeCapabilityBinding_inj hepoch' hepoch hencoded' hencoded, rfl⟩
    · cases hverify
  · rintro ⟨rfl, rfl, rfl⟩
    unfold verify
    rw [if_neg hphase, hencoded]
    exact if_pos rfl

end CapabilityCrypto

end MultAIplayer.Mls
