import MultAIplayer.Relay.Capacity
import MultAIplayer.Relay.Publish
import MultAIplayer.Relay.Reclaim

/-!
# Composite keys

Rooms, receipts and devices are kept under keys that join several ids with a colon or a NUL. What
joins them is safe because of what the parts cannot contain.

## Which part is guarded

Team and room ids are of the relay id alphabet, which has neither separator, so the first separator
of a key is the one that was put there, whatever follows it: a message id may contain anything. A
user id may contain a colon. The ids that GitHub sign-in issues contain exactly one, before an
integer, and for these the second colon is the separator, whatever the device id contains.
-/

namespace MultAIplayer

/-! ### The first separator -/

/-- A list up to a separator that it does not contain. -/
theorem takeWhile_append_separator {c : Char} {l : List Char} (h : c ∉ l) (rest : List Char) :
    (l ++ c :: rest).takeWhile (· ≠ c) = l := by
  have hall : ∀ a ∈ l, decide (a ≠ c) = true := by
    intro a ha
    rw [decide_eq_true_eq]
    rintro rfl
    exact h ha
  rw [List.takeWhile_append_of_pos hall]
  simp

theorem dropWhile_append_separator {c : Char} {l : List Char} (h : c ∉ l) (rest : List Char) :
    (l ++ c :: rest).dropWhile (· ≠ c) = c :: rest := by
  have hall : ∀ a ∈ l, decide (a ≠ c) = true := by
    intro a ha
    rw [decide_eq_true_eq]
    rintro rfl
    exact h ha
  rw [List.dropWhile_append_of_pos hall]
  simp

/-- Two joined lists are equal in both parts when neither head contains the separator. -/
theorem append_separator_inj {c : Char} {l l' rest rest' : List Char} (h : c ∉ l) (h' : c ∉ l')
    (heq : l ++ c :: rest = l' ++ c :: rest') : l = l' ∧ rest = rest' := by
  have hhead := congrArg (List.takeWhile (· ≠ c)) heq
  rw [takeWhile_append_separator h, takeWhile_append_separator h'] at hhead
  subst hhead
  exact ⟨rfl, (List.cons.inj (List.append_cancel_left heq)).2⟩

/-! ### Relay ids -/

/-- A text of the relay id alphabet: what the schemas `TeamId` and `RoomId`, `normalizeRelayId` and
`nanoid` allow. -/
abbrev RelayId := { id : String // matchesRelayIdPattern id = true }

theorem RelayId.not_mem (id : RelayId) {c : Char} (hc : isRelayIdChar c = false) :
    c ∉ id.val.toList := by
  intro hmem
  have hid := id.property
  rw [matchesRelayIdPattern, Bool.and_eq_true, List.all_eq_true] at hid
  rw [hid.2 c hmem] at hc
  cases hc

theorem RelayId.toList_ne_nil (id : RelayId) : id.val.toList ≠ [] := by
  have hid := id.property
  rw [matchesRelayIdPattern, Bool.and_eq_true] at hid
  simpa using hid.1

/-! ### Room keys -/

/-- `key.split(":")` into a team id and a room id, as the loader does it. -/
def splitRoomKey (key : RoomKey) : Option (String × String) :=
  match key.toList.splitOnP (· = ':') with
  | [teamId, roomId] =>
    if teamId = [] ∨ roomId = [] then none else some (String.ofList teamId, String.ofList roomId)
  | _ => none

theorem toList_roomKey (teamId roomId : String) :
    (roomKey teamId roomId).toList = teamId.toList ++ ':' :: roomId.toList := by
  rw [roomKey, String.toList_append, String.toList_append]
  simp

theorem splitRoomKey_roomKey (teamId roomId : RelayId) :
    splitRoomKey (roomKey teamId roomId) = some (teamId.val, roomId.val) := by
  have hteam : ∀ c ∈ teamId.val.toList, decide (c = ':') = false := by
    rintro c hc
    rw [decide_eq_false_iff_not]
    rintro rfl
    exact teamId.not_mem rfl hc
  have hroom : ∀ c ∈ roomId.val.toList, decide (c = ':') = false := by
    rintro c hc
    rw [decide_eq_false_iff_not]
    rintro rfl
    exact roomId.not_mem rfl hc
  have hsplit : (roomKey teamId roomId).toList.splitOnP (· = ':') =
      [teamId.val.toList, roomId.val.toList] := by
    rw [toList_roomKey, List.splitOnP_append_cons_of_forall_mem hteam ':' (by decide),
      List.splitOnP_eq_singleton hroom]
  rw [splitRoomKey, hsplit]
  dsimp only
  rw [if_neg (not_or.mpr ⟨teamId.toList_ne_nil, roomId.toList_ne_nil⟩), String.ofList_toList,
    String.ofList_toList]

theorem colon_mem_roomKey (teamId roomId : String) : ':' ∈ (roomKey teamId roomId).toList := by
  rw [toList_roomKey]
  exact List.mem_append_right _ List.mem_cons_self

theorem teamFromRoomKey_roomKey (teamId : RelayId) (roomId : String) :
    teamFromRoomKey (roomKey teamId roomId) = teamId.val := by
  rw [teamFromRoomKey, if_pos (colon_mem_roomKey _ _), toList_roomKey,
    takeWhile_append_separator (teamId.not_mem rfl), String.ofList_toList]

theorem roomIdOfKey_roomKey (teamId : RelayId) (roomId : String) :
    roomIdOfKey (roomKey teamId roomId) = some roomId := by
  rw [roomIdOfKey, if_pos (colon_mem_roomKey _ _), toList_roomKey,
    dropWhile_append_separator (teamId.not_mem rfl), List.tail_cons, String.ofList_toList]

theorem roomKey_inj {t r t' r' : RelayId} (h : roomKey t r = roomKey t' r') : t = t' ∧ r = r' := by
  have hsplit := congrArg splitRoomKey h
  rw [splitRoomKey_roomKey, splitRoomKey_roomKey, Option.some.injEq, Prod.mk.injEq] at hsplit
  exact ⟨Subtype.ext hsplit.1, Subtype.ext hsplit.2⟩

/-! ### Receipt keys -/

/-- `storageKeyForRow` of a receipt. -/
def storageKeyForReceipt (roomKey messageId : String) : String :=
  Json.stringify (.arr (.item (.str roomKey) (.item (.str messageId) .noItems)))

theorem toList_receiptKey (key messageId : String) :
    (receiptKey key messageId).toList = key.toList ++ '\x00' :: messageId.toList := by
  rw [receiptKey, String.toList_append, String.toList_append]
  simp

theorem nul_not_mem_roomKey (teamId roomId : RelayId) :
    '\x00' ∉ (roomKey teamId roomId).toList := by
  rw [toList_roomKey]
  intro h
  rcases List.mem_append.mp h with h | h
  · exact teamId.not_mem rfl h
  · rcases List.mem_cons.mp h with h | h
    · cases h
    · exact roomId.not_mem rfl h

/-- The row of a receipt is stored under the key that its fields give. -/
theorem acceptedReceiptStorageKey_receiptKey (teamId roomId : RelayId) (messageId : String) :
    acceptedReceiptStorageKey (receiptKey (roomKey teamId roomId) messageId) =
      storageKeyForReceipt (roomKey teamId roomId) messageId := by
  have hnul := nul_not_mem_roomKey teamId roomId
  have hmem : '\x00' ∈ (receiptKey (roomKey teamId roomId) messageId).toList := by
    rw [toList_receiptKey]
    exact List.mem_append_right _ List.mem_cons_self
  rw [acceptedReceiptStorageKey, splitAtNul, if_pos hmem]
  dsimp only
  rw [toList_receiptKey, takeWhile_append_separator hnul, dropWhile_append_separator hnul,
    List.tail_cons, String.ofList_toList, String.ofList_toList, storageKeyForReceipt]

theorem storageKeyForReceipt_inj {k m k' m' : String}
    (h : storageKeyForReceipt k m = storageKeyForReceipt k' m') : k = k' ∧ m = m' := by
  have hterm := Json.stringify_injective h
  simpa only [JsonTerm.arr.injEq, JsonTerm.item.injEq, JsonTerm.str.injEq, and_true] using hterm

theorem receiptKey_inj {t r t' r' : RelayId} {m m' : String}
    (h : receiptKey (roomKey t r) m = receiptKey (roomKey t' r') m') :
    t = t' ∧ r = r' ∧ m = m' := by
  have hlist := congrArg String.toList h
  rw [toList_receiptKey, toList_receiptKey] at hlist
  obtain ⟨hkey, hmessage⟩ :=
    append_separator_inj (nul_not_mem_roomKey t r) (nul_not_mem_roomKey t' r') hlist
  obtain ⟨hteam, hroom⟩ := roomKey_inj (String.toList_inj.mp hkey)
  exact ⟨hteam, hroom, String.toList_inj.mp hmessage⟩

/-! ### Device keys -/

/-- `${id}` of an integer. -/
@[grind =] def integerText (id : ℤ) : String := (if id < 0 then "-" else "") ++ toString id.natAbs

/-- The user id of a GitHub account: the only user ids that a sign-in issues. -/
def githubUserId (id : ℤ) : String := "github:" ++ integerText id

theorem colon_not_mem_integerText (id : ℤ) : ':' ∉ (integerText id).toList := by
  intro h
  rw [integerText, String.toList_append] at h
  rcases List.mem_append.mp h with h | h
  · split_ifs at h <;> simp at h
  · have hdigit : ':'.isDigit = true := by
      refine Nat.isDigit_of_mem_toDigits (b := 10) (n := id.natAbs) (by decide) (by decide) ?_
      simpa [Nat.repr] using h
    cases hdigit

theorem toList_natText (n : ℕ) : (toString n).toList = Nat.toDigits 10 n := by
  simp

theorem integerText_injective : Function.Injective integerText := by
  have hnat : ∀ {n n' : ℕ}, toString n = toString n' → n = n' := by
    intro n n' h
    have hlist := congrArg String.toList h
    rw [toList_natText, toList_natText] at hlist
    have hvalue := congrArg (fun ds ↦ Nat.ofDigitChars 10 ds 0) hlist
    simpa using hvalue
  have hminus : ∀ n : ℕ, '-' ∉ (toString n).toList := by
    intro n hmem
    rw [toList_natText] at hmem
    have hdigit := Nat.isDigit_of_mem_toDigits (by decide) (by decide) hmem
    cases hdigit
  intro a b h
  have hlist := congrArg String.toList h
  rw [integerText, integerText, String.toList_append, String.toList_append] at hlist
  by_cases ha : a < 0
  · by_cases hb : b < 0
    · rw [if_pos ha, if_pos hb] at hlist
      have habs := hnat (String.toList_inj.mp (List.append_cancel_left hlist))
      omega
    · -- only one of the two texts begins with a minus
      rw [if_pos ha, if_neg hb] at hlist
      have hmem : '-' ∈ (toString b.natAbs).toList := by
        rw [show (toString b.natAbs).toList = _ from hlist.symm]
        exact List.mem_append_left _ (by decide)
      exact absurd hmem (hminus _)
  · by_cases hb : b < 0
    · rw [if_neg ha, if_pos hb] at hlist
      have hmem : '-' ∈ (toString a.natAbs).toList := by
        rw [show (toString a.natAbs).toList = _ from hlist]
        exact List.mem_append_left _ (by decide)
      exact absurd hmem (hminus _)
    · rw [if_neg ha, if_neg hb] at hlist
      have habs := hnat (String.toList_inj.mp (List.append_cancel_left hlist))
      omega

/-- The keys of the devices of signed-in accounts do not collide, whatever the device ids are. -/
theorem deviceKey_githubUserId_inj {a b : ℤ} {d d' : String}
    (h : deviceKey (githubUserId a) d = deviceKey (githubUserId b) d') : a = b ∧ d = d' := by
  have hlist := congrArg String.toList h
  have hkey : ∀ (id : ℤ) (deviceId : String), (deviceKey (githubUserId id) deviceId).toList =
      "github:".toList ++ ((integerText id).toList ++ ':' :: deviceId.toList) := by
    intro id deviceId
    simp [deviceKey, githubUserId, String.toList_append]
  rw [hkey, hkey] at hlist
  obtain ⟨hinteger, hdevice⟩ := append_separator_inj (colon_not_mem_integerText a)
    (colon_not_mem_integerText b) (List.append_cancel_left hlist)
  exact ⟨integerText_injective (String.toList_inj.mp hinteger), String.toList_inj.mp hdevice⟩

/-- What is registered or deleted for one account is not what another account reads. -/
theorem getDevice_edit_of_ne {a b : ℤ} (hab : a ≠ b) (r : Records) {device : DeviceRecord}
    (hdevice : device.userId = githubUserId a) (deviceId : String) :
    (r.edit (.setDevice device)).getDevice (githubUserId b) deviceId =
        r.getDevice (githubUserId b) deviceId ∧
      (r.edit (.delete .devices (deviceKey device.userId device.deviceId))).getDevice
        (githubUserId b) deviceId = r.getDevice (githubUserId b) deviceId := by
  have hne : deviceKey (githubUserId b) deviceId ≠ deviceKey device.userId device.deviceId := by
    rw [hdevice]
    exact fun h ↦ hab (deviceKey_githubUserId_inj h).1.symm
  exact ⟨InsertionMap.get_set_of_ne _ _ hne, InsertionMap.get_delete_of_ne _ hne⟩

/-- **Keys never collide** over relay ids, arbitrary message ids and the user ids that a sign-in
issues: room keys split back into their ids, receipts are stored under the key that their fields
give, and the devices of different accounts are apart. -/
theorem keys_recoverable :
    (∀ t r : RelayId, splitRoomKey (roomKey t r) = some (t.val, r.val) ∧
      roomIdOfKey (roomKey t r) = some r.val ∧ teamFromRoomKey (roomKey t r) = t.val) ∧
    (∀ t r t' r' : RelayId, roomKey t r = roomKey t' r' ↔ t = t' ∧ r = r') ∧
    (∀ (t r t' r' : RelayId) (m m' : String),
      (receiptKey (roomKey t r) m = receiptKey (roomKey t' r') m' ↔ t = t' ∧ r = r' ∧ m = m') ∧
      acceptedReceiptStorageKey (receiptKey (roomKey t r) m) =
        storageKeyForReceipt (roomKey t r) m ∧
      (acceptedReceiptStorageKey (receiptKey (roomKey t r) m) =
        acceptedReceiptStorageKey (receiptKey (roomKey t' r') m') ↔
          receiptKey (roomKey t r) m = receiptKey (roomKey t' r') m')) ∧
    (∀ (a b : ℤ) (d d' : String),
      deviceKey (githubUserId a) d = deviceKey (githubUserId b) d' ↔ a = b ∧ d = d') ∧
    ∀ (a b : ℤ) (r : Records) (device : DeviceRecord) (d : String), a ≠ b →
      device.userId = githubUserId a →
      (r.edit (.setDevice device)).getDevice (githubUserId b) d = r.getDevice (githubUserId b) d ∧
      (r.edit (.delete .devices (deviceKey device.userId device.deviceId))).getDevice
        (githubUserId b) d = r.getDevice (githubUserId b) d := by
  refine ⟨fun t r ↦ ⟨splitRoomKey_roomKey t r, roomIdOfKey_roomKey t r, teamFromRoomKey_roomKey t r⟩,
    fun t r t' r' ↦ ⟨roomKey_inj, ?_⟩, fun t r t' r' m m' ↦ ⟨⟨receiptKey_inj, ?_⟩,
      acceptedReceiptStorageKey_receiptKey t r m, ⟨fun h ↦ ?_, congrArg _⟩⟩,
    fun a b d d' ↦ ⟨deviceKey_githubUserId_inj, ?_⟩,
    fun a b r device d hab hdevice ↦ getDevice_edit_of_ne hab r hdevice d⟩
  · rintro ⟨rfl, rfl⟩
    rfl
  · rintro ⟨rfl, rfl, rfl⟩
    rfl
  · rw [acceptedReceiptStorageKey_receiptKey, acceptedReceiptStorageKey_receiptKey] at h
    obtain ⟨hkey, hmessage⟩ := storageKeyForReceipt_inj h
    rw [hkey, hmessage]
  · rintro ⟨rfl, rfl⟩
    rfl

/-- Two pairs of a user and a device that every validator admits and that share a key, so that one
user reads the device of the other. -/
theorem deviceKey_collides :
    ∃ (userId deviceId userId' deviceId' : String) (device : DeviceRecord),
      (isUserId userId ∧ isDeviceId deviceId ∧ isUserId userId' ∧ isDeviceId deviceId') ∧
      (normalizeMetadataText userId maxUserIdChars = some userId ∧
        normalizeMetadataText deviceId maxDeviceIdChars = some deviceId ∧
        normalizeMetadataText userId' maxUserIdChars = some userId' ∧
        normalizeMetadataText deviceId' maxDeviceIdChars = some deviceId') ∧
      (userId, deviceId) ≠ (userId', deviceId') ∧
      deviceKey userId deviceId = deviceKey userId' deviceId' ∧
      device.userId = userId ∧
      (({} : Records).edit (.setDevice device)).getDevice userId' deviceId' = some device := by
  refine ⟨"idp:ada", "laptop:primary0", "idp:ada:laptop", "primary0",
    { userId := "idp:ada", deviceId := "laptop:primary0", displayName := "Ada",
      signaturePublicKey := "", signatureKeyFingerprint := "", hpkePublicKey := "",
      hpkeKeyFingerprint := "", registeredAt := 0, lastSeenAt := 0 }, ?_⟩
  decide

end MultAIplayer
