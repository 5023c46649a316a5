import MultAIplayer.Relay.Limits
import MultAIplayer.Relay.Store

/-!
# Stored mutations

`store-mutations.ts`: what SQLite is asked to hold for a key of a collection, and the drain that
turns the reported mutations of the store into stored mutations, one for each key.

The encoding reads the clock: an expired session, invite or attachment and an outdated backlog
message are stored as absent. It reads the store at the time of the drain, not at the time of the
mutation, which is why only the last report of a key matters.
-/

namespace MultAIplayer

/-! ### Stored values -/

/-- A row of `relay_team_members`. -/
structure StoredTeamMembers where
  teamId : String
  members : List TeamMemberRecord
  deriving DecidableEq

/-- A stored backlog. -/
structure StoredBacklog where
  key : RoomKey
  messages : List MlsRelayMessage
  deriving DecidableEq

/-- The stored backlog of a list of messages; an empty one is stored as absent. -/
def StoredBacklog.ofMessages (key : RoomKey) : List MlsRelayMessage → Option StoredBacklog
  | [] => none
  | messages => some ⟨key, messages⟩

/-- What SQLite holds under a key of a collection. -/
abbrev Entity.Stored : Entity → Type
  | .teamMembers => StoredTeamMembers
  | .mlsBacklog => StoredBacklog
  | e => e.Value

/-- `StoredRelayMutation`; a deletion has no value. -/
structure StoredRelayMutation where
  entity : Entity
  key : String
  value : Option entity.Stored

namespace StoredRelayMutation

/-- What a change says about a key: nothing, a deletion, or a value. -/
@[grind =]
def valueAt (c : StoredRelayMutation) (e : Entity) (k : String) : Option (Option e.Stored) :=
  if h : c.entity = e then if c.key = k then some (h ▸ c.value) else none else none

/-- What a list of changes says about a key: the last change of that key decides. -/
@[grind =] def lastChange (l : List StoredRelayMutation) (e : Entity) (k : String) :
    Option (Option e.Stored) :=
  l.reverse.findSome? (·.valueAt e k)

@[simp] theorem valueAt_self (e : Entity) (k : String) (v : Option e.Stored) :
    valueAt ⟨e, k, v⟩ e k = some v := by
  simp [valueAt]

theorem valueAt_eq_none_of_ne {c : StoredRelayMutation} {e : Entity} {k : String}
    (h : ¬(c.entity = e ∧ c.key = k)) : c.valueAt e k = none := by
  unfold valueAt
  split_ifs with he hk
  · exact absurd ⟨he, hk⟩ h
  · rfl
  · rfl

theorem valueAt_eq_some {c : StoredRelayMutation} {e : Entity} {k : String}
    {v : Option e.Stored} (h : c.valueAt e k = some v) : c = ⟨e, k, v⟩ := by
  obtain ⟨e', k', v'⟩ := c
  unfold valueAt at h
  split_ifs at h with he hk
  subst he hk
  have hv : v' = v := Option.some.inj h
  rw [hv]

theorem lastChange_append (l l' : List StoredRelayMutation) (e : Entity) (k : String) :
    lastChange (l ++ l') e k = (lastChange l' e k).or (lastChange l e k) := by
  rw [lastChange, List.reverse_append, List.findSome?_append]
  rfl

theorem lastChange_eq_some {l : List StoredRelayMutation} {e : Entity} {k : String}
    {v : Option e.Stored} (h : lastChange l e k = some v) : ⟨e, k, v⟩ ∈ l := by
  obtain ⟨c, hc, hv⟩ := List.exists_of_findSome?_eq_some h
  rw [valueAt_eq_some hv] at hc
  exact List.mem_reverse.mp hc

theorem lastChange_eq_none_iff {l : List StoredRelayMutation} {e : Entity} {k : String} :
    lastChange l e k = none ↔ ∀ c ∈ l, ¬(c.entity = e ∧ c.key = k) := by
  simp only [lastChange, List.findSome?_eq_none_iff, List.mem_reverse]
  refine forall₂_congr fun c _ ↦ ⟨?_, valueAt_eq_none_of_ne⟩
  rintro h ⟨rfl, rfl⟩
  simp [valueAt] at h

/-- Leaving out changes of other keys does not matter. -/
theorem lastChange_filter {l : List StoredRelayMutation} {e : Entity} {k : String}
    {p : StoredRelayMutation → Bool} (hp : ∀ c, c.entity = e → p c = true) :
    lastChange (l.filter p) e k = lastChange l e k := by
  induction l with
  | nil => rfl
  | cons c l ih =>
    rw [← List.singleton_append (l := l), lastChange_append]
    by_cases hc : p c = true
    · rw [List.singleton_append, List.filter_cons_of_pos hc, ← List.singleton_append,
        lastChange_append, ih]
    · have hnone : lastChange [c] e k = none := by
        refine lastChange_eq_none_iff.mpr fun d hd h ↦ hc ?_
        rw [← List.mem_singleton.mp hd]
        exact hp d h.1
      rw [List.singleton_append, List.filter_cons_of_neg hc, ih, hnone, Option.or_none]

end StoredRelayMutation

/-! ### Encoding -/

/-- `isExpiredInvite`. -/
def isExpiredInvite (now : Instant) (invite : InviteRecord) : Bool :=
  invite.expiresAt.any (· < now)

/-- `isExpiredAttachmentBlob`. -/
def isExpiredAttachmentBlob (now : Instant) (blob : AttachmentBlobRecord) : Bool :=
  blob.expiresAt.any (· < now)

/-- A session that `storedAuthSessions` keeps: unexpired, under its own well-formed hash. -/
def isStorableAuthSession (now : Instant) (key : String) (session : AuthSession) : Bool :=
  now < session.expiresAt && isHexDigest key && session.sessionIdHash = key

/-- `storedBacklogValue`. -/
def storedBacklogValue (c : RelayConfig) (now : Instant) (key : RoomKey)
    (messages : Option (List MlsRelayMessage)) : Option StoredBacklog :=
  StoredBacklog.ofMessages key (pruneMlsBacklog c now (messages.getD []))

/-- The value that is stored for a key of a collection. -/
def encodeValue (c : RelayConfig) (now : Instant) (r : Records) :
    (e : Entity) → String → Option e.Stored
  | .authSessions, k => (r.authSessions.get k).filter (isStorableAuthSession now k)
  | .accountRestrictions, k => r.accountRestrictions.get k
  | .accountQuotaRecords, k => r.accountQuotaRecords.get k
  | .teams, k => r.teams.get k
  | .rooms, k => r.rooms.get k
  | .invites, k => (r.invites.get k).filter fun invite ↦ !isExpiredInvite now invite
  | .inviteRequests, k => r.inviteRequests.get k
  | .inviteResponses, k => r.inviteResponses.get k
  | .inviteAckReceipts, k => r.inviteAckReceipts.get k
  | .acceptedMessageReceipts, k => r.acceptedMessageReceipts.get k
  | .devices, k => r.devices.get k
  | .keyPackages, k => r.keyPackages.get k
  | .consumedKeyPackages, k => r.consumedKeyPackages.get k
  | .attachmentBlobs, k =>
    (r.attachmentBlobs.get k).filter fun blob ↦ !isExpiredAttachmentBlob now blob
  | .teamMembers, k => (r.teamMembers.get k).map fun members ↦ ⟨k, members.values⟩
  | .mlsBacklog, k => storedBacklogValue c now k (r.mlsBacklog.get k)

/-- The text before and after the first NUL. -/
def splitAtNul (cs : List Char) : Option (List Char × List Char) :=
  if '\x00' ∈ cs then some (cs.takeWhile (· ≠ '\x00'), (cs.dropWhile (· ≠ '\x00')).tail) else none

/-- `acceptedReceiptStorageKey`. -/
def acceptedReceiptStorageKey (key : String) : String :=
  match splitAtNul key.toList with
  | none => key
  | some (roomKey, messageId) =>
    Json.stringify (.arr (.item (.str (String.ofList roomKey))
      (.item (.str (String.ofList messageId)) .noItems)))

/-- The key of the row that a key of a collection is stored under. -/
def persistedKey : Entity → String → String
  | .acceptedMessageReceipts, k => acceptedReceiptStorageKey k
  | _, k => k

/-- `encode` of `createStoredRelayMutationStream`. -/
def encode (c : RelayConfig) (now : Instant) (r : Records) (mutation : RelayStoreMutation) :
    StoredRelayMutation where
  entity := mutation.entity
  key := persistedKey mutation.entity mutation.key
  value := encodeValue c now r mutation.entity mutation.key

/-- The reported mutations, one for each key. -/
def latestMutations (l : List RelayStoreMutation) : List RelayStoreMutation :=
  ((InsertionMap.empty : InsertionMap (Entity × String) RelayStoreMutation).setAll
    (l.map fun m ↦ ((m.entity, m.key), m))).values

/-- `drain`: the stored mutations since the last drain, and the store without its reports. -/
def drain (c : RelayConfig) (now : Instant) (s : RelayStore) :
    List StoredRelayMutation × RelayStore :=
  ((latestMutations s.durableMutations).map (encode c now s.toRecords),
    { s with durableMutations := [] })

/-! ### What a drain covers -/

theorem mem_latestMutations {l : List RelayStoreMutation} {m : RelayStoreMutation} :
    m ∈ latestMutations l ↔ m ∈ l := by
  have hkey : ∀ {k n}, InsertionMap.lookupEntry k
      (l.map fun m : RelayStoreMutation ↦ ((m.entity, m.key), m)).reverse = some n →
      k = (n.entity, n.key) ∧ n ∈ l := by
    intro k n h
    have hmem := InsertionMap.mem_of_lookupEntry h
    rw [List.mem_reverse, List.mem_map] at hmem
    obtain ⟨m, hm, he⟩ := hmem
    obtain ⟨rfl, rfl⟩ := Prod.mk.inj he
    exact ⟨rfl, hm⟩
  rw [latestMutations, InsertionMap.mem_values_iff]
  simp only [InsertionMap.get_setAll_reverse, InsertionMap.get_empty, Option.or_none]
  constructor
  · rintro ⟨k, hk⟩
    exact (hkey hk).2
  · intro hm
    refine ⟨(m.entity, m.key), ?_⟩
    cases h : InsertionMap.lookupEntry (m.entity, m.key)
        (l.map fun m : RelayStoreMutation ↦ ((m.entity, m.key), m)).reverse with
    | none =>
      rw [InsertionMap.lookupEntry_eq_none_iff] at h
      refine absurd (List.mem_map.mpr ⟨((m.entity, m.key), m), ?_, rfl⟩) h
      exact List.mem_reverse.mpr (List.mem_map.mpr ⟨m, hm, rfl⟩)
    | some n =>
      obtain ⟨he, -⟩ := hkey h
      obtain ⟨hentity, hkey⟩ := Prod.mk.inj he
      cases m
      cases n
      simp_all

/-- The encoding of a key depends on what the collection holds under it. -/
theorem encodeValue_congr {c : RelayConfig} {now : Instant} {r r' : Records} {e : Entity}
    {k : String} (h : (r'.collection e).get k = (r.collection e).get k) :
    encodeValue c now r' e k = encodeValue c now r e k := by
  cases e <;> simp only [Records.collection] at h <;> simp only [encodeValue, h]

/-- **Distinct receipts are stored under distinct keys**, as long as their keys separate the room
from the message. -/
theorem acceptedReceiptStorageKey_inj {j k : String} (hj : '\x00' ∈ j.toList)
    (hk : '\x00' ∈ k.toList) (h : acceptedReceiptStorageKey j = acceptedReceiptStorageKey k) :
    j = k := by
  simp only [acceptedReceiptStorageKey, splitAtNul, hj, hk, if_true] at h
  have hterm := Json.stringify_injective h
  simp only [JsonTerm.arr.injEq, JsonTerm.item.injEq, JsonTerm.str.injEq, and_true] at hterm
  obtain ⟨hroom, hmessage⟩ := hterm
  have hjoin : ∀ cs : List Char, '\x00' ∈ cs →
      cs = cs.takeWhile (· ≠ '\x00') ++ '\x00' :: (cs.dropWhile (· ≠ '\x00')).tail := by
    intro cs hcs
    have hne : cs.dropWhile (· ≠ '\x00') ≠ [] := by
      simpa [List.dropWhile_eq_nil_iff] using hcs
    have hhead := List.head_dropWhile_not (· ≠ '\x00') hne
    rw [decide_eq_false_iff_not, not_not] at hhead
    have hsplit := List.cons_head_tail hne
    rw [hhead] at hsplit
    rw [hsplit, List.takeWhile_append_dropWhile]
  refine String.toList_inj.mp ?_
  rw [hjoin _ hj, hjoin _ hk, String.ofList_injective hroom, String.ofList_injective hmessage]

end MultAIplayer
