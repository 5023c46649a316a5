import MultAIplayer.Mls.InviteCapability

/-!
# What is sealed for a room

Local history and blobs are sealed with AES-256-GCM under keys that the MLS exporter yields, with
associated data that names the purpose, the room, the epoch and the blob (`engine/exporter.rs`).

The associated data are injective on what the engine seals for, and tell history from blobs
(`ExporterContext.aad_inj`). A room and a blob are each written after their length in two bytes, and
no id of either is longer than two bytes can say.
-/

namespace MultAIplayer.Mls

open Framing

def blobAad (roomId : String) (blobId : Bytes) (epoch : ℕ) : Bytes :=
  utf8 "multaiplayer:blob:v1\x00" ++ (beBytes 2 (utf8 roomId).length ++ utf8 roomId ++
    (beBytes 2 blobId.length ++ blobId) ++ beBytes 8 epoch)

def historyAad (roomId : String) (epoch : ℕ) : Bytes :=
  utf8 "multaiplayer:history:v1\x00" ++ (beBytes 2 (utf8 roomId).length ++ utf8 roomId ++
    beBytes 8 epoch)

/-- What something is sealed for. -/
inductive ExporterContext where
  | history (roomId : String) (epoch : ℕ)
  | blob (roomId : String) (blobId : Bytes) (epoch : ℕ)
  deriving DecidableEq

namespace ExporterContext

def aad : ExporterContext → Bytes
  | history roomId epoch => historyAad roomId epoch
  | blob roomId blobId epoch => blobAad roomId blobId epoch

/-- What the engine seals for: a room that it has, and a blob id that `export_blob_key` accepts. -/
def Admitted : ExporterContext → Prop
  | history roomId epoch => validateComponent roomId = true ∧ epoch < 2 ^ 64
  | blob roomId blobId epoch =>
    (validateComponent roomId = true ∧ blobId ≠ [] ∧ blobId.length ≤ 128) ∧ epoch < 2 ^ 64

theorem length_utf8_le {roomId : String} (h : validateComponent roomId = true) :
    (utf8 roomId).length ≤ 128 := by
  simp only [validateComponent, Bool.and_eq_true, decide_eq_true_eq] at h
  rw [length_utf8]
  exact h.1.2

theorem delimited_room : Delimited (validateComponent · = true)
    fun roomId ↦ lengthPrefixed 2 (utf8 roomId) := by
  have hlengths : ∀ roomId, validateComponent roomId = true → (utf8 roomId).length < 256 ^ 2 :=
    fun roomId h ↦ (length_utf8_le h).trans_lt (by decide)
  exact ((delimited_lengthPrefixed 2).comap utf8_injective).mono hlengths

theorem delimited_blobId : Delimited (fun blobId : Bytes ↦ blobId.length ≤ 128)
    (lengthPrefixed 2) :=
  (delimited_lengthPrefixed 2).mono fun _ h ↦ h.trans_lt (by decide)

/-- **What is sealed for different things has different associated data.** -/
theorem aad_inj {a b : ExporterContext} (ha : a.Admitted) (hb : b.Admitted)
    (h : a.aad = b.aad) : a = b := by
  have hpurposes (rest rest' : Bytes) :
      utf8 "multaiplayer:history:v1\x00" ++ rest ≠ utf8 "multaiplayer:blob:v1\x00" ++ rest' := by
    intro heq
    have htwelfth := congrArg (·[13]?) heq
    rw [List.getElem?_append_left (by decide), List.getElem?_append_left (by decide)] at htwelfth
    revert htwelfth
    decide
  cases a with
  | history roomId epoch =>
    cases b with
    | history roomId' epoch' =>
      obtain ⟨rfl, hepochs⟩ := delimited_room ha.1 hb.1 (List.append_cancel_left h)
      rw [(delimited_beBytes 8).injective ha.2 hb.2 hepochs]
    | blob roomId' blobId' epoch' => exact absurd h (hpurposes _ _)
  | blob roomId blobId epoch =>
    cases b with
    | history roomId' epoch' => exact absurd h.symm (hpurposes _ _)
    | blob roomId' blobId' epoch' =>
      obtain ⟨⟨hroom, -, hlength⟩, hepoch⟩ := ha
      obtain ⟨⟨hroom', -, hlength'⟩, hepoch'⟩ := hb
      have hparts := (delimited_room.append delimited_blobId).append (delimited_beBytes 8)
      have heq := hparts.injective (a := ((roomId, blobId), epoch))
        (b := ((roomId', blobId'), epoch')) ⟨⟨hroom, hlength⟩, hepoch⟩
        ⟨⟨hroom', hlength'⟩, hepoch'⟩ (List.append_cancel_left h)
      cases heq
      rfl

end ExporterContext

/-! ### Sealing -/

/-- AES-256-GCM. The ciphertexts are of a type of their own. -/
structure Aead (γ : Type) where
  encrypt : (key nonce aad plaintext : Bytes) → γ
  decrypt : (key nonce aad : Bytes) → γ → Option Bytes

structure ExporterCiphertext (γ : Type) where
  version : ℕ
  epoch : ℕ
  nonce : Bytes
  ciphertext : γ

namespace Aead

variable {γ : Type} (aead : Aead γ)

/-- `seal_exporter`, with the nonce that is drawn; a key of another length has no cipher. -/
def sealExporter (key nonce : Bytes) (epoch : ℕ) (aad plaintext : Bytes) :
    Option (ExporterCiphertext γ) :=
  if key.length ≠ 32 then none
  else some ⟨1, epoch, nonce, aead.encrypt key nonce aad plaintext⟩

def openExporter (key aad : Bytes) (value : ExporterCiphertext γ) : Option Bytes :=
  if value.nonce.length ≠ 12 ∨ key.length ≠ 32 then none
  else aead.decrypt key value.nonce aad value.ciphertext

/-- Only what was encrypted decrypts, and a ciphertext tells everything that it was made of. -/
structure Ideal : Prop where
  decrypt_iff : ∀ key nonce aad ciphertext plaintext,
    aead.decrypt key nonce aad ciphertext = some plaintext ↔
      ciphertext = aead.encrypt key nonce aad plaintext
  encrypt_inj : ∀ key key' nonce nonce' aad aad' plaintext plaintext',
    aead.encrypt key nonce aad plaintext = aead.encrypt key' nonce' aad' plaintext' →
      key = key' ∧ nonce = nonce' ∧ aad = aad' ∧ plaintext = plaintext'

variable {aead}

/-- **A ciphertext opens as what it was sealed for.** The record around it may be another one. -/
theorem openExporter_sealExporter (hideal : aead.Ideal) {key key' nonce plaintext opened : Bytes}
    {epoch : ℕ} {a b : ExporterContext} {sealed value : ExporterCiphertext γ} (ha : a.Admitted)
    (hb : b.Admitted) (hsealed : aead.sealExporter key nonce epoch a.aad plaintext = some sealed)
    (hvalue : value.ciphertext = sealed.ciphertext)
    (h : aead.openExporter key' b.aad value = some opened) :
    b = a ∧ key' = key ∧ opened = plaintext := by
  unfold sealExporter at hsealed
  split at hsealed
  · cases hsealed
  obtain rfl := Option.some.inj hsealed
  unfold openExporter at h
  split at h
  · cases h
  rw [hvalue, hideal.decrypt_iff] at h
  obtain ⟨rfl, -, haad, rfl⟩ := hideal.encrypt_inj _ _ _ _ _ _ _ _ h
  exact ⟨(ExporterContext.aad_inj ha hb haad).symm, rfl, rfl⟩

end Aead

end MultAIplayer.Mls
