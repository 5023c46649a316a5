import MultAIplayer.Mls.Exporter

/-!
# Tags and ciphertexts of different purposes

What was authenticated or sealed for one binding, phase, room, epoch, blob or purpose does not
verify for another, as long as the MAC and the AEAD are ideal. What makes it so is that every
encoding is injective and that each purpose has a label of its own.
-/

namespace MultAIplayer.Mls

/-- **Authenticated encodings are injective and separate their purposes.** -/
theorem authenticated_encodings_separate {δ γ : Type} [DecidableEq δ]
    {crypto : CapabilityCrypto δ} {aead : Aead γ} (hmac : crypto.Ideal) (haead : aead.Ideal) :
    (∀ (a b : CapabilityBinding) (encoded : Bytes), a.keyEpoch < 2 ^ 64 → b.keyEpoch < 2 ^ 64 →
      encodeCapabilityBinding a = .ok encoded → encodeCapabilityBinding b = .ok encoded → a = b) ∧
    (∀ a b : ExporterContext, a.Admitted → b.Admitted → a.aad = b.aad → a = b) ∧
    (∀ (verifier verifier' tag : δ) (binding binding' : CapabilityBinding)
      (domain domain' : MacDomain), binding.keyEpoch < 2 ^ 64 → binding'.keyEpoch < 2 ^ 64 →
      crypto.authenticate verifier binding domain = .ok tag →
      (crypto.verify verifier' binding' tag domain' = .ok () ↔
        verifier' = verifier ∧ binding' = binding ∧ domain' = domain)) ∧
    ∀ (a b : ExporterContext) (key key' nonce plaintext opened : Bytes) (epoch : ℕ)
      (sealed value : ExporterCiphertext γ), a.Admitted → b.Admitted →
      aead.sealExporter key nonce epoch a.aad plaintext = some sealed →
      value.ciphertext = sealed.ciphertext →
      aead.openExporter key' b.aad value = some opened →
      b = a ∧ key' = key ∧ opened = plaintext := by
  refine ⟨fun a b encoded ha hb ↦ encodeCapabilityBinding_inj ha hb,
    fun a b ↦ ExporterContext.aad_inj, ?_, ?_⟩
  · intro verifier verifier' tag binding binding' domain domain' hepoch hepoch' h
    exact CapabilityCrypto.verify_authenticate_iff hmac hepoch hepoch' h
  · intro a b key key' nonce plaintext opened epoch sealed value ha hb hsealed hvalue h
    exact Aead.openExporter_sealExporter haead ha hb hsealed hvalue h

/-! ### Ideal functions -/

/-- A value of a MAC that is nothing but its arguments. -/
inductive SymbolicTag where
  | hash (bytes : Bytes)
  | mac (key : SymbolicTag) (message : Bytes)
  deriving DecidableEq

def symbolicCrypto : CapabilityCrypto SymbolicTag where
  hmac := .mac
  sha256 := .hash

/-- A ciphertext that is nothing but its arguments. -/
def symbolicAead : Aead (Bytes × Bytes × Bytes × Bytes) where
  encrypt key nonce aad plaintext := (key, nonce, aad, plaintext)
  decrypt key nonce aad ciphertext :=
    if ciphertext.1 = key ∧ ciphertext.2.1 = nonce ∧ ciphertext.2.2.1 = aad then
      some ciphertext.2.2.2
    else none

theorem ideal_symbolicCrypto : symbolicCrypto.Ideal :=
  fun _ _ _ _ h ↦ SymbolicTag.mac.inj h

theorem ideal_symbolicAead : symbolicAead.Ideal where
  decrypt_iff := by
    rintro key nonce aad ⟨key', nonce', aad', plaintext'⟩ plaintext
    simp only [symbolicAead, Prod.mk.injEq]
    split_ifs with h
    · simp [h]
    · simp only [false_iff]
      exact fun heq ↦ h ⟨heq.1, heq.2.1, heq.2.2.1⟩
  encrypt_inj key key' nonce nonce' aad aad' plaintext plaintext' h := by
    simpa [symbolicAead] using h

/-- A binding of a request to a room. -/
def sampleBinding (roomId : String) : CapabilityBinding where
  version := 3
  phase := "request"
  inviteId := "invite-1"
  teamId := "team-1"
  roomId := roomId
  keyEpoch := 1
  keyPackageHash := "hash"
  requestId := "request-1"
  requestNonce := "nonce"
  requesterUserId := "user-2"
  requesterDeviceId := "device-2"
  hostUserId := "user-1"
  hostDeviceId := "device-1"
  expiresAt := "2030-01-01T00:00:00Z"
  status := none
  decidedAt := none

/-- The tag of a request does not verify for another room. -/
theorem authenticated_encodings_separate_sample :
    (symbolicCrypto.authenticate (.hash []) (sampleBinding "room-1") .request).toOption.any
      fun tag ↦ symbolicCrypto.verify (.hash []) (sampleBinding "room-2") tag .request ≠ .ok () := by
  have hall := (authenticated_encodings_separate ideal_symbolicCrypto ideal_symbolicAead).2.2.1
  have htag : (symbolicCrypto.authenticate (.hash [])
      (sampleBinding "room-1") .request).toOption.isSome = true := by decide
  rcases h : symbolicCrypto.authenticate (.hash []) (sampleBinding "room-1") .request with _ | tag
  · rw [h] at htag
    cases htag
  · have hverify := hall (.hash []) (.hash []) tag _ (sampleBinding "room-2") .request .request
      (by decide) (by decide) h
    refine decide_eq_true fun hok ↦ ?_
    exact absurd (congrArg CapabilityBinding.roomId (hverify.mp hok).2.1) (by decide)

end MultAIplayer.Mls
