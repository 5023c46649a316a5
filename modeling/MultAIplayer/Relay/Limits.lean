import MultAIplayer.Protocol.RelayMessages

/-!
# Relay limits

The bounds of `limits.ts` and `opaque.ts`: which texts a request boundary accepts, which messages
are small enough, and which messages of a backlog are kept.
-/

namespace MultAIplayer

/-! ### Texts -/

/-- `normalizeMetadataText`: the trimmed text, when it is there, bounded and free of controls. -/
def normalizeMetadataText (value : String) (maxChars : ℕ) : Option String :=
  let text := Text.trim value
  if text = "" ∨ maxChars < Text.utf16Length text then none
  else if text.toList.any Text.isControl then none
  else some text

theorem normalizeMetadataText_eq_some {value text : String} {maxChars : ℕ}
    (h : normalizeMetadataText value maxChars = some text) :
    text = Text.trim value ∧ text ≠ "" ∧ Text.utf16Length text ≤ maxChars ∧
      normalizeMetadataText text maxChars = some text := by
  have hagain := h
  unfold normalizeMetadataText at hagain
  dsimp only at hagain
  split_ifs at hagain with hbound hcontrol
  cases hagain
  rw [not_or, not_lt] at hbound
  refine ⟨rfl, hbound.1, hbound.2, ?_⟩
  unfold normalizeMetadataText at h ⊢
  rw [Text.trim_trim]
  exact h

/-- `normalizeRelayId`: the text itself, when it is bounded and of the relay id alphabet. -/
def normalizeRelayId (value : String) (maxChars : ℕ) : Option String :=
  if value = "" ∨ value ≠ Text.trim value ∨ maxChars < Text.utf16Length value then none
  else if matchesRelayIdPattern value then some value
  else none

/-- `isCanonicalPaddedBase64`. -/
def isCanonicalPaddedBase64 (value : String) (maxChars : ℕ) : Bool :=
  4 ≤ Text.utf16Length value && Text.utf16Length value ≤ maxChars &&
    !value.toList.any Text.isControl && Text.isCanonicalBase64 value

/-! ### Configured limits -/

/-- The configuration that the modelled code reads, with the defaults of `config.ts`. -/
structure RelayConfig where
  mlsMessageMaxBytes : ℕ := 1000000
  mlsBacklogLimit : ℕ := 200
  mlsBacklogRetentionDays : ℕ := 30
  inviteTtlDays : ℕ := 7
  mutationsRequireAuth : Bool := true
  websocketConnectionsPerUser : ℕ := 20
  websocketConnectionsPerDevice : ℕ := 5
  retainedAuthSessionCapPerUser : ℕ := 20
  liveInviteCapPerUser : ℕ := 100
  liveKeyPackageCapPerUser : ℕ := 250
  registeredDeviceCapPerUser : ℕ := 25
  debugEndpointsEnabled : Bool := false

/-- `maxMlsMessageChars` of `createRelayLimits`: `ceil(bytes * 4 / 3) + 1024`. -/
def RelayConfig.maxMlsMessageChars (c : RelayConfig) : ℕ := (c.mlsMessageMaxBytes * 4 + 2) / 3 + 1024

def millisecondsPerDay : ℕ := 24 * 60 * 60 * 1000

/-- `isMlsMessageWithinLimits`. -/
def isMlsMessageWithinLimits (c : RelayConfig) (m : MlsRelayMessage) : Bool :=
  (normalizeMetadataText m.id maxEnvelopeIdChars).isSome &&
    (normalizeMetadataText m.senderUserId maxUserIdChars).isSome &&
    (normalizeMetadataText m.senderDeviceId maxDeviceIdChars).isSome &&
    isCanonicalPaddedBase64 m.mlsMessage c.maxMlsMessageChars &&
    Text.utf8Length m.stringify ≤ c.mlsMessageMaxBytes

theorem isMlsMessageWithinLimits_of_length {c : RelayConfig} {m : MlsRelayMessage} {n : ℕ}
    (hlength : Text.utf8Length m.stringify = n) (hmax : n ≤ c.mlsMessageMaxBytes)
    (hfields : ((normalizeMetadataText m.id maxEnvelopeIdChars).isSome &&
      (normalizeMetadataText m.senderUserId maxUserIdChars).isSome &&
      (normalizeMetadataText m.senderDeviceId maxDeviceIdChars).isSome &&
      isCanonicalPaddedBase64 m.mlsMessage c.maxMlsMessageChars) = true) :
    isMlsMessageWithinLimits c m = true := by
  unfold isMlsMessageWithinLimits
  rw [hlength, hfields, decide_eq_true hmax]
  rfl

/-! ### The retained backlog -/

/-- Whether a message is young enough to stay in a backlog. -/
def RelayConfig.isRetained (c : RelayConfig) (now : Instant) (m : MlsRelayMessage) : Bool :=
  (IsoDate.parse m.createdAt).any fun createdAtMs ↦
    now - (c.mlsBacklogRetentionDays * millisecondsPerDay : ℕ) ≤ createdAtMs

/-- `Array.prototype.slice(-limit)`: the last entries, or all of them when the limit is zero. -/
@[grind =] def sliceLast {α : Type} (limit : ℕ) (l : List α) : List α :=
  if limit = 0 then l else l.drop (l.length - limit)

/-- `pruneMlsBacklog`. -/
@[grind =] def pruneMlsBacklog (c : RelayConfig) (now : Instant) (messages : List MlsRelayMessage) :
    List MlsRelayMessage :=
  sliceLast c.mlsBacklogLimit
    (messages.filter fun m ↦ c.isRetained now m && isMlsMessageWithinLimits c m)

theorem sliceLast_sublist {α : Type} (limit : ℕ) (l : List α) : (sliceLast limit l).Sublist l := by
  unfold sliceLast
  split_ifs
  · exact List.Sublist.refl l
  · exact List.drop_sublist _ l

theorem pruneMlsBacklog_sublist (c : RelayConfig) (now : Instant) (l : List MlsRelayMessage) :
    (pruneMlsBacklog c now l).Sublist l :=
  (sliceLast_sublist _ _).trans List.filter_sublist

/-- A slice keeps the last entry. -/
theorem sliceLast_append_singleton {α : Type} (limit : ℕ) (l : List α) (a : α) :
    ∃ l' : List α, l'.Sublist l ∧ sliceLast limit (l ++ [a]) = l' ++ [a] := by
  unfold sliceLast
  split_ifs with h
  · exact ⟨l, List.Sublist.refl l, rfl⟩
  · refine ⟨l.drop (l.length + 1 - limit), List.drop_sublist _ l, ?_⟩
    rw [List.length_append, List.length_singleton, List.drop_append_of_le_length (by omega)]

theorem pruneMlsBacklog_append_of_retained {c : RelayConfig} {now : Instant}
    {l : List MlsRelayMessage} {m : MlsRelayMessage} (hage : c.isRetained now m = true)
    (hsize : isMlsMessageWithinLimits c m = true) :
    ∃ l' : List MlsRelayMessage, l'.Sublist l ∧ pruneMlsBacklog c now (l ++ [m]) = l' ++ [m] := by
  rw [pruneMlsBacklog, List.filter_append, List.filter_singleton]
  simp only [hage, hsize, Bool.and_self]
  obtain ⟨l', hsub, heq⟩ := sliceLast_append_singleton c.mlsBacklogLimit
    (l.filter fun m ↦ c.isRetained now m && isMlsMessageWithinLimits c m) m
  exact ⟨l', hsub.trans List.filter_sublist, heq⟩

theorem mem_of_mem_pruneMlsBacklog {c : RelayConfig} {now : Instant} {l : List MlsRelayMessage}
    {m : MlsRelayMessage} (h : m ∈ pruneMlsBacklog c now l) :
    m ∈ l ∧ c.isRetained now m = true ∧ isMlsMessageWithinLimits c m = true := by
  have hmem := List.mem_filter.mp ((sliceLast_sublist _ _).subset h)
  exact ⟨hmem.1, Bool.and_eq_true_iff.mp hmem.2⟩

theorem sliceLast_sliceLast {α : Type} (limit : ℕ) (l : List α) :
    sliceLast limit (sliceLast limit l) = sliceLast limit l := by
  unfold sliceLast
  split_ifs with h
  · rfl
  · have hlength : (l.drop (l.length - limit)).length - limit = 0 := by
      rw [List.length_drop]
      omega
    rw [hlength, List.drop_zero]

/-- Pruning twice at one time is pruning once. -/
theorem pruneMlsBacklog_pruneMlsBacklog (c : RelayConfig) (now : Instant)
    (l : List MlsRelayMessage) :
    pruneMlsBacklog c now (pruneMlsBacklog c now l) = pruneMlsBacklog c now l := by
  have hall : ∀ m ∈ pruneMlsBacklog c now l,
      (c.isRetained now m && isMlsMessageWithinLimits c m) = true := fun m hm ↦
    Bool.and_eq_true_iff.mpr (mem_of_mem_pruneMlsBacklog hm).2
  rw [pruneMlsBacklog, List.filter_eq_self.mpr hall]
  exact sliceLast_sliceLast _ _

end MultAIplayer
