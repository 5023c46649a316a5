import MultAIplayer.Lib.IsoDate
import MultAIplayer.Relay.Http
import MultAIplayer.Relay.Keys

/-!
# Attachments across a restart

The record that `POST /attachment-blobs` stores (`validateAttachmentTarget`,
`validateAttachmentPayload`), and what the loader makes of it (`normalizeAttachmentBlob`). The
loader drops a row that it does not recognize without a word.

The quotas and ceilings that can still refuse an upload are left out: they do not change the record.
-/

namespace MultAIplayer

/-- The configuration of attachments, with the defaults of `config.ts`. -/
structure AttachmentLimits where
  attachmentBlobMaxBytes : ℕ := 5000000
  attachmentBlobTtlDays : ℕ := 30

def maxAttachmentBlobIdChars : ℕ := maxRelayIdChars

def maxAttachmentBlobNameChars : ℕ := 512

def maxAttachmentBlobTypeChars : ℕ := 160

/-- `maxCiphertextCharactersForBlob`: `ceil((bytes + 1024) * 4 / 3) + 64`. -/
def AttachmentLimits.maxCiphertextChars (c : AttachmentLimits) : ℕ :=
  ((c.attachmentBlobMaxBytes + 1024) * 4 + 2) / 3 + 64

/-! ### Sealed blobs -/

/-- The fields of an exporter ciphertext record, as `JSON.stringify` writes each of them. -/
def exporterCiphertextFields (epoch : ℕ) (nonce ciphertext : String) : List String :=
  ["\"version\":1", "\"epoch\":" ++ toString epoch, "\"nonce\":\"" ++ nonce ++ "\"",
    "\"ciphertext\":\"" ++ ciphertext ++ "\""]

/-- The text of an object with these fields. -/
def objectText (fields : List String) : String :=
  "\x7b" ++ String.intercalate "," fields ++ "\x7d"

/-- What stands behind a key, in the first field that begins with it. -/
def fieldText? (fields : List String) (key : String) : Option (List Char) :=
  fields.findSome? fun field ↦
    if key.toList.isPrefixOf field.toList then some (field.toList.drop key.length) else none

/-- The epoch, the nonce and the ciphertext of a text that is such a record, its keys in this order,
written as `JSON.stringify` writes it. Base64 has neither a comma nor an escape. -/
def exporterCiphertext? (value : String) : Option (ℕ × String × String) :=
  let fields := (value.toList.tail.dropLast.splitOnP (· = ',')).map String.ofList
  (fieldText? fields "\"epoch\":").bind fun epoch ↦
  (IsoDate.digits? epoch).bind fun epoch ↦
  (fieldText? fields "\"nonce\":\"").bind fun nonce ↦
  (fieldText? fields "\"ciphertext\":\"").bind fun ciphertext ↦
    let nonce := String.ofList nonce.dropLast
    let ciphertext := String.ofList ciphertext.dropLast
    if objectText (exporterCiphertextFields epoch nonce ciphertext) = value then
      some (epoch, nonce, ciphertext)
    else none

/-- `isStrictExporterCiphertextJson`. -/
def isStrictExporterCiphertextJson (value : String) (maxChars : ℕ) : Bool :=
  2 ≤ Text.utf16Length value && Text.utf16Length value ≤ maxChars &&
    !value.toList.any Text.isControl && (exporterCiphertext? value).any fun record ↦
      record.1 ≤ maxSafeInteger && isCanonicalPaddedBase64 record.2.1 64 &&
        isCanonicalPaddedBase64 record.2.2 maxChars

/-! ### Uploading -/

/-- The body of `POST /attachment-blobs`, its fields as `String` or `Number` reads them. -/
structure AttachmentUpload where
  hasExactKeys : Bool
  teamId : String
  roomId : String
  blobId : String
  name : String
  /-- What is there instead of `null`. -/
  type : Option String
  /-- The number, where it is an integer. -/
  size : Option ℤ
  epoch : Option ℤ
  /-- The text, or the empty one where it is none. -/
  sealedBlob : String

/-- A number that is a safe integer and not negative. -/
def safeCount (n : Option ℤ) : Option ℕ := (n.bind Int.toNat?).filter isCount

namespace HttpContext

variable (x : HttpContext) (c : AttachmentLimits)

/-- `validateAttachmentTarget`: the id of the blob. -/
def validateAttachmentTarget (body : AttachmentUpload) : Except HttpError String :=
  if !body.hasExactKeys then
    .error ⟨400, "invalid_request", "Attachment blob contains unsupported fields."⟩
  else if !x.records.teams.has body.teamId then .error ⟨404, "team_not_found", "Team not found"⟩
  else if (x.records.rooms.get body.roomId).map (·.teamId) ≠ some body.teamId then
    .error ⟨404, "room_not_found", "Room not found"⟩
  else if !x.records.isActiveRoom body.teamId body.roomId then
    .error ⟨409, "conflict", "Restore the team and room before uploading attachments."⟩
  else
    match normalizeMetadataText body.blobId maxAttachmentBlobIdChars with
    | none => .error ⟨400, "invalid_request", "blobId is required and must be bounded."⟩
    | some blobId =>
      if x.records.attachmentBlobs.has blobId then
        .error ⟨409, "conflict", "blobId already exists."⟩
      else if x.lacksAccess body.teamId body.roomId then
        .error ⟨403, "forbidden", "Join this room before uploading attachment blobs."⟩
      else .ok blobId

/-- The type that is asked for: `file` where there is none. -/
def requestedType (body : AttachmentUpload) : String :=
  let text := Text.trim (body.type.getD "file")
  if text = "" then "file" else text

/-- `validateAttachmentPayload`: the record, for a target that has been validated. -/
def validateAttachmentPayload (blobId : String) (body : AttachmentUpload) :
    Except HttpError AttachmentBlobRecord :=
  match normalizeMetadataText body.name maxAttachmentBlobNameChars,
      normalizeMetadataText (requestedType body) maxAttachmentBlobTypeChars with
  | none, _ =>
    .error ⟨400, "invalid_request", "name must be a non-empty string up to 512 characters"⟩
  | _, none =>
    .error ⟨400, "invalid_request",
      "type must be a non-empty bounded string without control characters"⟩
  | some name, some type =>
    match safeCount body.size with
    | none => .error ⟨400, "invalid_request", "size must be a non-negative integer"⟩
    | some size =>
      if c.attachmentBlobMaxBytes < size then
        .error ⟨413, "payload_too_large", "Attachment blob size exceeds " ++
          toString c.attachmentBlobMaxBytes ++ " bytes"⟩
      else
        match (safeCount body.epoch).filter fun _ ↦ body.sealedBlob ≠ "" with
        | none => .error ⟨400, "invalid_request", "epoch and sealedBlob are required"⟩
        | some epoch =>
          if c.maxCiphertextChars < Text.utf16Length body.sealedBlob then
            .error ⟨413, "payload_too_large", "Attachment blob ciphertext exceeds " ++
              toString c.attachmentBlobMaxBytes ++ " bytes"⟩
          else if !isStrictExporterCiphertextJson body.sealedBlob c.maxCiphertextChars then
            .error ⟨400, "invalid_request",
              "sealedBlob must be a canonical exporter ciphertext record"⟩
          else
            .ok
              { id := blobId
                teamId := body.teamId
                roomId := body.roomId
                name, type, size, epoch
                uploadedByUserId := x.session.map (·.user.id)
                sealedBlob := body.sealedBlob
                createdAt := x.now
                expiresAt := some (x.now + (c.attachmentBlobTtlDays * millisecondsPerDay : ℕ)) }

/-- The record that `POST /attachment-blobs` stores. -/
def uploadAttachment (body : AttachmentUpload) : Except HttpError AttachmentBlobRecord :=
  match x.validateAttachmentTarget body with
  | .error error => .error error
  | .ok blobId => x.validateAttachmentPayload c blobId body

end HttpContext

/-! ### Loading -/

/-- The schema `AttachmentBlobRecord`. -/
@[grind =] def AttachmentBlobRecord.isValid (blob : AttachmentBlobRecord) : Bool :=
  boundedString 1 maxAttachmentBlobIdChars blob.id && isRelayId blob.teamId &&
    isRelayId blob.roomId && boundedString 1 maxAttachmentBlobNameChars blob.name &&
    boundedString 1 maxAttachmentBlobTypeChars blob.type && isCount blob.size &&
    blob.uploadedByUserId.all isUserId && isCount blob.epoch && blob.sealedBlob ≠ ""

/-- `normalizeAttachmentBlob`, once the teams and rooms have been loaded. -/
def normalizeAttachmentBlob (c : AttachmentLimits) (loaded : Records)
    (blob : AttachmentBlobRecord) : Option AttachmentBlobRecord :=
  if !blob.isValid then none
  else
    match normalizeRelayId blob.id maxAttachmentBlobIdChars,
        normalizeMetadataText blob.name maxAttachmentBlobNameChars,
        normalizeMetadataText blob.type maxAttachmentBlobTypeChars with
    | some id, some name, some type =>
      if !loaded.teams.has blob.teamId then none
      else if (loaded.rooms.get blob.roomId).map (·.teamId) ≠ some blob.teamId then none
      else if c.attachmentBlobMaxBytes < blob.size then none
      else if c.maxCiphertextChars < Text.utf16Length blob.sealedBlob then none
      else if !isStrictExporterCiphertextJson blob.sealedBlob c.maxCiphertextChars then none
      else some { blob with id, name, type }
    | _, _, _ => none

/-- What the loader has of a blob that was saved. -/
def loadAttachmentBlob (c : AttachmentLimits) (now : Instant) (loaded : Records)
    (blob : AttachmentBlobRecord) : Option AttachmentBlobRecord :=
  (normalizeAttachmentBlob c loaded blob).filter fun blob ↦ !isExpiredAttachmentBlob now blob

/-! ### Texts that have been normalized -/

theorem boundedString_of_normalized {value text : String} {maxChars : ℕ}
    (h : normalizeMetadataText value maxChars = some text) :
    boundedString 1 maxChars text = true := by
  obtain ⟨-, hne, hlength, -⟩ := normalizeMetadataText_eq_some h
  rw [boundedString, Bool.and_eq_true, decide_eq_true_eq, decide_eq_true_eq]
  exact ⟨Text.utf16Length_pos hne, hlength⟩

theorem safeCount_eq_some {n : Option ℤ} {count : ℕ} (h : safeCount n = some count) :
    isCount count = true :=
  (Option.filter_eq_some_iff.mp h).2

/-- A text that has been normalized is a relay id when it is of the alphabet. -/
theorem normalizeRelayId_of_normalized {value text : String} {maxChars : ℕ}
    (h : normalizeMetadataText value maxChars = some text) :
    normalizeRelayId text maxChars = if matchesRelayIdPattern text then some text else none := by
  obtain ⟨htrim, hne, hlength, -⟩ := normalizeMetadataText_eq_some h
  have hself : text = Text.trim text := by rw [htrim, Text.trim_trim]
  rw [normalizeRelayId, if_neg]
  rw [not_or, not_or, not_lt]
  exact ⟨hne, not_not.mpr hself, hlength⟩

/-! ### What an upload has passed -/

namespace HttpContext

variable {x : HttpContext} {c : AttachmentLimits} {body : AttachmentUpload}
  {blob : AttachmentBlobRecord}

theorem validateAttachmentTarget_eq_ok {blobId : String}
    (h : x.validateAttachmentTarget body = .ok blobId) :
    normalizeMetadataText body.blobId maxAttachmentBlobIdChars = some blobId := by
  unfold validateAttachmentTarget at h
  -- the four checks before the id, which do not look at it
  iterate 4
    split at h
    · cases h
  split at h
  · cases h
  rename_i id hid
  split at h
  · cases h
  split at h
  · cases h
  cases h
  exact hid

/-- **What the record of an upload has passed.** -/
theorem uploadAttachment_eq_ok (h : x.uploadAttachment c body = .ok blob) :
    normalizeMetadataText body.blobId maxAttachmentBlobIdChars = some blob.id ∧
      normalizeMetadataText body.name maxAttachmentBlobNameChars = some blob.name ∧
      normalizeMetadataText (requestedType body) maxAttachmentBlobTypeChars = some blob.type ∧
      isCount blob.size = true ∧ isCount blob.epoch = true ∧
      blob.uploadedByUserId = x.session.map (·.user.id) ∧ blob.sealedBlob ≠ "" ∧
      blob.size ≤ c.attachmentBlobMaxBytes ∧
      Text.utf16Length blob.sealedBlob ≤ c.maxCiphertextChars ∧
      isStrictExporterCiphertextJson blob.sealedBlob c.maxCiphertextChars = true := by
  unfold uploadAttachment at h
  split at h
  · cases h
  rename_i blobId htarget
  unfold validateAttachmentPayload at h
  split at h
  · cases h
  · cases h
  rename_i name type hname htype
  split at h
  · cases h
  rename_i size hsize
  split at h
  · cases h
  rename_i hbound
  split at h
  · cases h
  rename_i epoch hepoch
  obtain ⟨hepoch, hsealed⟩ := Option.filter_eq_some_iff.mp hepoch
  split at h
  · cases h
  rename_i hlength
  split at h
  · cases h
  rename_i hstrict
  cases h
  rw [Bool.not_eq_true, Bool.not_eq_false'] at hstrict
  exact ⟨validateAttachmentTarget_eq_ok htarget, hname, htype, safeCount_eq_some hsize,
    safeCount_eq_some hepoch, rfl, of_decide_eq_true hsealed, not_lt.mp hbound,
    not_lt.mp hlength, hstrict⟩

/-- **When an attachment survives a restart**: when its id is of the relay id alphabet. -/
theorem loadAttachmentBlob_iff (h : x.uploadAttachment c body = .ok blob)
    (huser : ∀ session ∈ x.session, isUserId session.user.id = true) {loaded : Records}
    (hteam : loaded.teams.has blob.teamId = true)
    (hroom : (loaded.rooms.get blob.roomId).map (·.teamId) = some blob.teamId)
    (hids : isRelayId blob.teamId = true ∧ isRelayId blob.roomId = true) {later : Instant}
    (hlive : isExpiredAttachmentBlob later blob = false) :
    loadAttachmentBlob c later loaded blob = some blob ↔ matchesRelayIdPattern blob.id = true := by
  obtain ⟨hid, hname, htype, hsize, hepoch, huploader, hsealed, hbytes, hlength, hstrict⟩ :=
    uploadAttachment_eq_ok h
  have huploaded : blob.uploadedByUserId.all isUserId = true := by
    rw [huploader]
    cases hsession : x.session with
    | none => rfl
    | some session => exact huser session hsession
  have hvalid : blob.isValid = true := by
    rw [AttachmentBlobRecord.isValid, boundedString_of_normalized hid, hids.1, hids.2,
      boundedString_of_normalized hname, boundedString_of_normalized htype, hsize, huploaded,
      hepoch]
    simpa using hsealed
  have hnormalized : normalizeAttachmentBlob c loaded blob =
      if matchesRelayIdPattern blob.id then some blob else none := by
    rw [normalizeAttachmentBlob, hvalid, normalizeRelayId_of_normalized hid,
      (normalizeMetadataText_eq_some hname).2.2.2, (normalizeMetadataText_eq_some htype).2.2.2,
      hteam, hroom, hstrict]
    split_ifs <;> first | rfl | omega | simp_all
  rw [loadAttachmentBlob, hnormalized]
  split_ifs with hpattern
  · rw [Option.filter_some_pos (by rw [hlive]; rfl)]
    exact iff_of_true rfl hpattern
  · exact iff_of_false (by simp) hpattern

/-! ### An id with a space -/

def attachmentRecords : Records :=
  { teams := InsertionMap.empty.set "team-1" ⟨"team-1", "Team", 0, none, none, none⟩
    rooms := InsertionMap.empty.set "room-1"
      { id := "room-1", teamId := "team-1", name := "Room", host := "User", hostUserId := none
        hostStatus := .active, approvalPolicy := .askEveryTurn } }

def attachmentContext : HttpContext where
  platform := { sha256 := id, sha256OfBase64 := id, verifyHostTransfer := fun _ _ _ ↦ true }
  now := 0
  records := attachmentRecords
  session := none
  deviceSessions := .empty
  deviceSessionToken := none

def attachmentUpload (blobId : String) : AttachmentUpload where
  hasExactKeys := true
  teamId := "team-1"
  roomId := "room-1"
  blobId := blobId
  name := "notes.txt"
  type := none
  size := some 3
  epoch := some 0
  sealedBlob := objectText (exporterCiphertextFields 0 "AAAA" "AAAA")

/-- What is stored of `attachmentUpload`. -/
def storedAttachment (blobId : String) : AttachmentBlobRecord where
  id := blobId
  teamId := "team-1"
  roomId := "room-1"
  name := "notes.txt"
  type := "file"
  size := 3
  epoch := 0
  sealedBlob := objectText (exporterCiphertextFields 0 "AAAA" "AAAA")
  createdAt := 0
  expiresAt := some 2592000000

theorem loadAttachmentBlob_iff_sample :
    loadAttachmentBlob {} 1 attachmentRecords (storedAttachment "blob-1") =
        some (storedAttachment "blob-1") ↔
      matchesRelayIdPattern (storedAttachment "blob-1").id = true := by
  have hstored : attachmentContext.uploadAttachment {} (attachmentUpload "blob-1") =
      .ok (storedAttachment "blob-1") := by decide
  exact loadAttachmentBlob_iff hstored nofun (by decide) (by decide)
    (by decide) (by decide)

/-- The route stores a blob whose id has a space, and the loader has no such row. -/
theorem spaced_attachment_is_dropped :
    ¬∀ (x : HttpContext) (c : AttachmentLimits) (body : AttachmentUpload)
      (blob : AttachmentBlobRecord) (loaded : Records) (later : Instant),
      x.uploadAttachment c body = .ok blob →
      loaded.teams.has blob.teamId = true →
      (loaded.rooms.get blob.roomId).map (·.teamId) = some blob.teamId →
      isExpiredAttachmentBlob later blob = false →
      loadAttachmentBlob c later loaded blob = some blob := by
  intro h
  have hkept := h attachmentContext {} (attachmentUpload "a b") (storedAttachment "a b")
    attachmentRecords 1 (by decide) (by decide) (by decide)
    (by decide)
  exact absurd hkept (by decide)

end HttpContext

end MultAIplayer
