import MultAIplayer.Relay.Http

/-!
# KeyPackage routes

`http/key-packages.ts` with its two transactions: uploading a batch of KeyPackages, and consuming
one for an invite request.

A batch is validated before it waits for its account's turn and committed afterwards, when
everything that the store can contradict is checked again. A consumption deletes the live
KeyPackage, records its hash and binds the invite in one save.
-/

namespace MultAIplayer

def maxBatchSize : ℕ := 20
def maxLivePackagesPerDevice : ℕ := 50
def maxEncodedKeyPackageChars : ℕ := 32768
def pinnedMlsCiphersuite : ℕ := 2

/-- `KeyPackageUpload`, with the credential identity that the validator finds in it when the
credential is its uploader's. -/
structure KeyPackageUpload where
  id : String
  keyPackage : String
  keyPackageHash : String
  ciphersuite : ℕ
  credentialIdentity : Option String
  deriving DecidableEq

namespace KeyPackageUpload

/-- The schema `KeyPackageUpload`. -/
@[grind =] def isValid (upload : KeyPackageUpload) : Bool :=
  boundedString 1 maxEnvelopeIdChars upload.id && upload.keyPackage ≠ "" &&
    isSha256Digest upload.keyPackageHash && upload.ciphersuite = pinnedMlsCiphersuite

/-- `hashKeyPackage`. -/
def hashKeyPackage (P : Platform) (encoded : String) : String :=
  "sha256:" ++ P.sha256OfBase64 encoded

end KeyPackageUpload

namespace Records

variable (r : Records)

/-- `keyPackagesForDevice`. -/
def keyPackagesForDevice (userId deviceId : String) : List KeyPackageRecord :=
  r.keyPackages.values.filter fun keyPackage ↦
    keyPackage.userId = userId && keyPackage.deviceId = deviceId

/-- `accountPackageCount`. -/
def accountPackageCount (userId : String) : ℕ :=
  (r.keyPackages.values.filter (·.userId = userId)).length

/-- Whether a hash belongs to a live KeyPackage. -/
def isLiveHash (keyPackageHash : String) : Bool :=
  r.keyPackages.values.any (·.keyPackageHash = keyPackageHash)

end Records

namespace HttpContext

variable (x : HttpContext)

/-! ### Uploading -/

/-- `validateUploadedKeyPackage`, given the uploads of the batch that came before. -/
def validateUploadedKeyPackage (userId deviceId : String) (seen : List KeyPackageRecord)
    (upload : KeyPackageUpload) : Except HttpError KeyPackageRecord :=
  if !upload.isValid || maxEncodedKeyPackageChars < Text.utf16Length upload.keyPackage ||
      seen.any (·.id = upload.id) || seen.any (·.keyPackageHash = upload.keyPackageHash) then
    .error ⟨400, "key_package_invalid", "Invalid or duplicate KeyPackage."⟩
  else if !isCanonicalPaddedBase64 upload.keyPackage maxEncodedKeyPackageChars then
    .error ⟨400, "key_package_invalid", "Invalid KeyPackage encoding or ciphersuite."⟩
  else if upload.keyPackageHash ≠ KeyPackageUpload.hashKeyPackage x.platform upload.keyPackage then
    .error ⟨400, "key_package_invalid", "KeyPackage hash mismatch."⟩
  else if x.records.keyPackages.has upload.id then
    .error ⟨409, "conflict", "KeyPackage id already exists."⟩
  else if x.records.isLiveHash upload.keyPackageHash then
    .error ⟨409, "conflict", "KeyPackage was already published."⟩
  else if x.records.consumedKeyPackages.has upload.keyPackageHash then
    .error ⟨409, "conflict", "KeyPackage was already consumed."⟩
  else
    match upload.credentialIdentity with
    | none =>
      .error ⟨400, "key_package_invalid", "KeyPackage credential does not match its uploader."⟩
    | some credentialIdentity =>
      .ok
        { id := upload.id
          keyPackage := upload.keyPackage
          keyPackageHash := upload.keyPackageHash
          ciphersuite := upload.ciphersuite
          userId, deviceId, credentialIdentity
          createdAt := x.now }

/-- `validateKeyPackageBatch`. -/
def validateKeyPackageBatch (userId deviceId : String) (seen : List KeyPackageRecord) :
    List KeyPackageUpload → Except HttpError (List KeyPackageRecord)
  | [] => .ok seen
  | upload :: uploads =>
    match x.validateUploadedKeyPackage userId deviceId seen upload with
    | .error error => .error error
    | .ok accepted => validateKeyPackageBatch userId deviceId (seen ++ [accepted]) uploads

def uploadTransaction (accepted : List KeyPackageRecord) : Transaction where
  stage := accepted.map .setKeyPackage
  rollback := accepted.map fun item ↦ .delete .keyPackages item.id

/-- `commitValidatedKeyPackages`. -/
def commitValidatedKeyPackages (session : AuthSession) (deviceId : String)
    (accepted : List KeyPackageRecord) : Handling :=
  let userId := session.user.id
  if !(x.records.isLiveAccountSession x.now session && x.hasDeviceSession userId deviceId) then
    .refuse 403 "device_auth_required" "Registered device identity changed before commit."
  else if maxLivePackagesPerDevice <
      (x.records.keyPackagesForDevice userId deviceId).length + accepted.length then
    .refuse 409 "conflict" "KeyPackage live limit exceeded."
  else if x.config.liveKeyPackageCapPerUser <
      x.records.accountPackageCount userId + accepted.length then
    .refuse 429 "quota_exceeded" "Account KeyPackage quota exceeded."
  else if accepted.any fun item ↦ x.records.consumedKeyPackages.has item.keyPackageHash then
    .refuse 409 "conflict" "KeyPackage was already consumed and cannot be published again."
  else if accepted.any fun item ↦
      x.records.keyPackages.has item.id || x.records.isLiveHash item.keyPackageHash then
    .refuse 409 "conflict" "KeyPackage id already exists."
  else if (x.records.getDevice userId deviceId).isNone then
    .refuse 403 "device_auth_required" "Registered device identity changed before commit."
  else
    .commit
      { transaction := uploadTransaction accepted
        awaits := true
        unsaved := persistenceUnavailable "Could not persist KeyPackages." }

/-- `POST /devices/:deviceId/key-packages`. -/
def uploadKeyPackages (deviceId : String) (uploads : List KeyPackageUpload) (withinBudget : Bool) :
    Handling :=
  match x.session with
  | none => .refuse 401 "authentication_required" "Sign in before publishing KeyPackages."
  | some session =>
    let userId := session.user.id
    if !x.hasDeviceSession userId deviceId then
      .refuse 403 "device_auth_required" "A device-authenticated session is required."
    else if (x.records.getDevice userId deviceId).isNone then
      .refuse 403 "device_auth_required" "Register this device before publishing KeyPackages."
    else if uploads = [] ∨ maxBatchSize < uploads.length then
      .refuse 400 "invalid_request"
        ("keyPackages must contain 1-" ++ toString maxBatchSize ++ " items.")
    else if maxLivePackagesPerDevice <
        (x.records.keyPackagesForDevice userId deviceId).length + uploads.length then
      .refuse 409 "conflict" "KeyPackage live limit exceeded."
    else if x.config.liveKeyPackageCapPerUser <
        x.records.accountPackageCount userId + uploads.length then
      .refuse 429 "quota_exceeded" "Account KeyPackage quota exceeded."
    else if !withinBudget then
      .refuse 429 "rate_limited" "KeyPackage validation limit exceeded. Slow down before retrying."
    else
      match x.validateKeyPackageBatch userId deviceId [] uploads with
      | .error error => .answer (.error error)
      | .ok accepted => x.commitValidatedKeyPackages session deviceId accepted

/-! ### Consuming -/

/-- What `POST /rooms/:roomId/key-packages/:userId/:deviceId/consume` asks for. -/
structure ConsumptionInput where
  roomId : String
  hostDeviceId : String
  inviteId : String
  userId : String
  deviceId : String
  keyPackageId : String
  keyPackageHash : String

namespace ConsumptionInput

variable (input : ConsumptionInput)

/-- `findMatchingInviteRequest`. -/
def matchesRequest (inviteId : String) (request : InviteJoinRequestRecord) : Bool :=
  request.inviteId = inviteId && request.requesterUserId = input.userId &&
    request.requesterDeviceId = input.deviceId && request.keyPackageId = input.keyPackageId &&
    request.keyPackageHash = input.keyPackageHash

/-- `inviteAlreadyConsumed`. -/
def matchesInvite (invite : InviteRecord) : Bool :=
  invite.approvedUserId = some input.userId && invite.approvedDeviceId = some input.deviceId &&
    invite.keyPackageHash = some input.keyPackageHash

/-- `keyPackageMatchesRequest`. -/
def matchesKeyPackage (item : KeyPackageRecord) : Bool :=
  item.userId = input.userId && item.deviceId = input.deviceId &&
    item.keyPackageHash = input.keyPackageHash

end ConsumptionInput

/-- The invite with the KeyPackage that was consumed for it. -/
def boundInvite (invite : InviteRecord) (item : KeyPackageRecord) : InviteRecord :=
  { invite with
    approvedUserId := some item.userId
    approvedDeviceId := some item.deviceId
    keyPackageHash := some item.keyPackageHash }

/-- The record of a consumption. -/
def consumedRecord (teamId : String) (item : KeyPackageRecord) : ConsumedKeyPackageRecord where
  keyPackageHash := item.keyPackageHash
  teamId := some teamId
  userId := some item.userId
  deviceId := some item.deviceId
  consumedAt := x.now

/-- `stageKeyPackageConsumption` and `rollbackKeyPackageConsumption`. The rollback looks at what it
finds before it puts anything back, and it finds what was staged. -/
def consumptionTransaction (teamId : String) (invite : InviteRecord) (item : KeyPackageRecord) :
    Transaction where
  stage := [.delete .keyPackages item.id, .setConsumedKeyPackage (x.consumedRecord teamId item),
    .setInvite (boundInvite invite item)]
  rollback := [.delete .consumedKeyPackages item.keyPackageHash, .setKeyPackage item,
    .setInvite invite]

/-- `hostAuthorizationFailure` is `null`. -/
def hostRemainsAuthorized (room : RoomRecord) (hostUserId hostDeviceId : String) : Bool :=
  x.records.isActiveRoom room.teamId room.id && room.isActiveHost hostUserId hostDeviceId

/-- `consumeKeyPackageForInvite`, within the turns of both accounts. -/
def consumeKeyPackageForInvite (session : AuthSession) (room : RoomRecord)
    (input : ConsumptionInput) : Handling :=
  if !(x.records.isLiveAccountSession x.now session &&
      x.hasDeviceSession session.user.id input.hostDeviceId) then
    .refuse 403 "forbidden" "Active host authority changed before KeyPackage consumption."
  else if (x.records.getDevice input.userId input.deviceId).isNone then
    .refuse 409 "conflict" "Requester device identity changed before consumption."
  else if !x.hostRemainsAuthorized room session.user.id input.hostDeviceId then
    .refuse 403 "forbidden" "Active host authority changed before KeyPackage consumption."
  else
    match (x.records.invites.get input.inviteId).filter fun invite ↦
        invite.roomId = room.id && invite.teamId = room.teamId with
    | none => .refuse 403 "forbidden" "A valid room invite approval is required."
    | some invite =>
      if invite.expiresAt.any (· ≤ x.now) then .refuse 410 "invite_expired" "Invite expired."
      else if !x.records.inviteRequests.values.any (input.matchesRequest invite.id) then
        .refuse 409 "conflict" "KeyPackage does not match the pending invite request."
      else
        match x.records.keyPackages.get input.keyPackageId with
        | none =>
          if input.matchesInvite invite then .answer (.alreadyConsumed input.keyPackageHash)
          else .refuse 404 "key_package_unavailable" "No KeyPackage is available."
        | some item =>
          if !input.matchesKeyPackage item then
            .refuse 409 "conflict" "KeyPackage does not match the pending invite request."
          else if x.records.consumedKeyPackages.has item.keyPackageHash then
            .refuse 404 "key_package_unavailable" "No KeyPackage is available."
          else
            .commit
              { transaction := x.consumptionTransaction room.teamId invite item
                saved := .keyPackage item
                awaits := true
                unsaved := persistenceUnavailable "Could not consume KeyPackage durably." }

/-- `POST /rooms/:roomId/key-packages/:userId/:deviceId/consume`. -/
def consumeKeyPackage (input : ConsumptionInput) : Handling :=
  match x.session with
  | none => .refuse 401 "authentication_required" "Sign in before consuming a KeyPackage."
  | some session =>
    if !x.hasDeviceSession session.user.id input.hostDeviceId then
      .refuse 403 "device_auth_required" "A device-authenticated session is required."
    else
      match x.records.rooms.get input.roomId with
      | none => .refuse 404 "room_not_found" "Room not found."
      | some room =>
        if !room.isActiveHost session.user.id input.hostDeviceId then
          .refuse 403 "forbidden" "Only the active host device may consume KeyPackages."
        else x.consumeKeyPackageForInvite session room input

/-! ### What a commit has passed -/

variable {x} {c : Commit}

/-- A validated upload is not one of its batch that came before, by id or by hash. -/
theorem validateUploadedKeyPackage_eq_ok {userId deviceId : String} {seen : List KeyPackageRecord}
    {upload : KeyPackageUpload} {accepted : KeyPackageRecord}
    (h : x.validateUploadedKeyPackage userId deviceId seen upload = .ok accepted) :
    accepted.id ∉ seen.map (·.id) ∧ accepted.keyPackageHash ∉ seen.map (·.keyPackageHash) ∧
      accepted.id ≠ "" ∧ accepted.keyPackageHash ≠ "" := by
  unfold validateUploadedKeyPackage at h
  split at h
  · cases h
  rename_i hnew
  split at h
  · cases h
  split at h
  · cases h
  split at h
  · cases h
  split at h
  · cases h
  split at h
  · cases h
  split at h
  · cases h
  cases h
  rw [Bool.or_eq_true, Bool.or_eq_true, not_or, not_or] at hnew
  have hnewId := List.any_eq_false.mp (Bool.not_eq_true _ ▸ hnew.1.2)
  have hnewHash := List.any_eq_false.mp (Bool.not_eq_true _ ▸ hnew.2)
  have hvalid : upload.isValid = true := by
    have hbounds := hnew.1.1
    rw [Bool.or_eq_true, not_or] at hbounds
    simpa using hbounds.1
  simp only [KeyPackageUpload.isValid, Bool.and_eq_true, decide_eq_true_eq] at hvalid
  refine ⟨fun hmem ↦ ?_, fun hmem ↦ ?_, fun hempty ↦ ?_, fun hempty ↦ ?_⟩
  · obtain ⟨item, hitem, hid⟩ := List.mem_map.mp hmem
    exact hnewId item hitem (decide_eq_true hid)
  · obtain ⟨item, hitem, hhash⟩ := List.mem_map.mp hmem
    exact hnewHash item hitem (decide_eq_true hhash)
  · have hid := hvalid.1.1.1
    rw [show upload.id = "" from hempty] at hid
    cases hid
  · have hhash := hvalid.1.2
    rw [show upload.keyPackageHash = "" from hempty] at hhash
    cases hhash

/-- A validated batch repeats neither an id nor a hash, and none of them is empty. -/
theorem validateKeyPackageBatch_eq_ok {userId deviceId : String} {uploads : List KeyPackageUpload}
    {seen accepted : List KeyPackageRecord} (hid : (seen.map (·.id)).Nodup)
    (hhash : (seen.map (·.keyPackageHash)).Nodup)
    (hseen : ∀ item ∈ seen, item.id ≠ "" ∧ item.keyPackageHash ≠ "")
    (h : x.validateKeyPackageBatch userId deviceId seen uploads = .ok accepted) :
    (accepted.map (·.id)).Nodup ∧ (accepted.map (·.keyPackageHash)).Nodup ∧
      ∀ item ∈ accepted, item.id ≠ "" ∧ item.keyPackageHash ≠ "" := by
  induction uploads generalizing seen with
  | nil =>
    cases h
    exact ⟨hid, hhash, hseen⟩
  | cons upload uploads ih =>
    change (match x.validateUploadedKeyPackage userId deviceId seen upload with
      | .error error => Except.error error
      | .ok accepted => x.validateKeyPackageBatch userId deviceId (seen ++ [accepted]) uploads)
        = .ok accepted at h
    cases hitem : x.validateUploadedKeyPackage userId deviceId seen upload with
    | error error =>
      rw [hitem] at h
      cases h
    | ok item =>
    rw [hitem] at h
    obtain ⟨hnewId, hnewHash, hnamed⟩ := validateUploadedKeyPackage_eq_ok hitem
    refine ih ?_ ?_ (List.forall_mem_append.mpr ⟨hseen, List.forall_mem_singleton.mpr hnamed⟩) h
    · rw [List.map_append, List.map_singleton, List.nodup_append_comm]
      exact List.nodup_cons.mpr ⟨hnewId, hid⟩
    · rw [List.map_append, List.map_singleton, List.nodup_append_comm]
      exact List.nodup_cons.mpr ⟨hnewHash, hhash⟩

theorem isLiveHash_eq_false {r : Records} {keyPackageHash : String}
    (h : r.isLiveHash keyPackageHash = false) {k : String} {item : KeyPackageRecord}
    (hk : r.keyPackages.get k = some item) : item.keyPackageHash ≠ keyPackageHash := by
  have hall := List.any_eq_false.mp h item (InsertionMap.mem_values_iff.mpr ⟨k, hk⟩)
  simpa using hall

/-- **What an upload has passed**: its ids and hashes are new to the store and to each other. -/
theorem uploadKeyPackages_eq_commit {deviceId : String} {uploads : List KeyPackageUpload}
    {withinBudget : Bool} (h : x.uploadKeyPackages deviceId uploads withinBudget = .commit c) :
    ∃ accepted, c.transaction = uploadTransaction accepted ∧ (accepted.map (·.id)).Nodup ∧
      (accepted.map (·.keyPackageHash)).Nodup ∧
      (∀ item ∈ accepted, item.id ≠ "" ∧ item.keyPackageHash ≠ "") ∧ ∀ item ∈ accepted,
        x.records.keyPackages.get item.id = none ∧
        x.records.consumedKeyPackages.get item.keyPackageHash = none ∧
        x.records.isLiveHash item.keyPackageHash = false := by
  unfold uploadKeyPackages at h
  split at h
  · cases h
  rename_i session _
  dsimp only at h
  split at h
  · cases h
  split at h
  · cases h
  split at h
  · cases h
  split at h
  · cases h
  split at h
  · cases h
  split at h
  · cases h
  split at h
  · cases h
  rename_i accepted hbatch
  have hnil : ∀ f : KeyPackageRecord → String, (([] : List KeyPackageRecord).map f).Nodup :=
    fun _ ↦ List.nodup_nil
  obtain ⟨hid, hhash, hnamed⟩ := validateKeyPackageBatch_eq_ok (hnil _) (hnil _) (by simp) hbatch
  unfold commitValidatedKeyPackages at h
  dsimp only at h
  split at h
  · cases h
  split at h
  · cases h
  split at h
  · cases h
  split at h
  · cases h
  rename_i hconsumed
  split at h
  · cases h
  rename_i hlive
  cases h
  refine ⟨accepted, rfl, hid, hhash, hnamed, fun item hitem ↦ ?_⟩
  rw [Bool.not_eq_true, List.any_eq_false] at hconsumed hlive
  have hlive := hlive item hitem
  rw [Bool.or_eq_true, not_or] at hlive
  exact ⟨InsertionMap.get_eq_none_of_not_has hlive.1,
    InsertionMap.get_eq_none_of_not_has (hconsumed item hitem), by simpa using hlive.2⟩

/-- **What a consumption has passed.** -/
theorem consumeKeyPackage_eq_commit {input : ConsumptionInput}
    (h : x.consumeKeyPackage input = .commit c) :
    ∃ teamId invite item, x.records.invites.get input.inviteId = some invite ∧
      x.records.inviteRequests.values.any (input.matchesRequest invite.id) = true ∧
      x.records.keyPackages.get input.keyPackageId = some item ∧
      input.matchesKeyPackage item = true ∧
      x.records.consumedKeyPackages.get item.keyPackageHash = none ∧
      c.transaction = x.consumptionTransaction teamId invite item ∧ c.saved = .keyPackage item := by
  unfold consumeKeyPackage at h
  split at h
  · cases h
  split at h
  · cases h
  split at h
  · cases h
  rename_i room _
  split at h
  · cases h
  unfold consumeKeyPackageForInvite at h
  split at h
  · cases h
  split at h
  · cases h
  split at h
  · cases h
  split at h
  · cases h
  rename_i invite hinvite
  split at h
  · cases h
  split at h
  · cases h
  rename_i hrequest
  split at h
  · split at h <;> cases h
  rename_i item hitem
  split at h
  · cases h
  rename_i hmatches
  split at h
  · cases h
  rename_i hconsumed
  cases h
  exact ⟨room.teamId, invite, item, (Option.filter_eq_some_iff.mp hinvite).1, by simpa using hrequest,
    hitem, by simpa using hmatches, InsertionMap.get_eq_none_of_not_has hconsumed, rfl, rfl⟩

end HttpContext

end MultAIplayer
