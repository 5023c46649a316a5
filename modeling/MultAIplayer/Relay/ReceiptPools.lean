import Mathlib.Data.List.Dedup
import MultAIplayer.Lib.Newest
import MultAIplayer.Relay.Keys
import MultAIplayer.Relay.Reclaim

/-!
# Receipt pools

Receipts of accepted messages are pruned in two places: after a publish, for the room
(`pruneAcceptedReceipts`), and with the rest of the store (`pruneAcceptedMessageReceipts`). Both drop
what is outdated and cap what is left pool by pool: the Commits of a room, and the application
messages of a room and a sender.

Each prune gets one lemma, which says whether it drops a receipt in terms of the receipt's own pool
(`livePool`). That the two agree, and that no pool can crowd out another, follows from these.
-/

namespace MultAIplayer

abbrev Receipts := InsertionMap String AcceptedMessageReceipt

/-- Two receipts of one pool. -/
@[grind =] def AcceptedMessageReceipt.samePool (a b : AcceptedMessageReceipt) : Bool :=
  a.roomKey = b.roomKey && a.messageType = b.messageType &&
    (a.messageType = .commit || a.senderUserId = b.senderUserId)

/-- The receipts of a pool that are not outdated, in insertion order. -/
@[grind =] def livePool (now : Instant) (receipts : Receipts) (receipt : AcceptedMessageReceipt) :
    List (String × AcceptedMessageReceipt) :=
  receipts.entries.filter fun e ↦ !isOutdatedReceipt now e.2 && e.2.samePool receipt

/-- A receipt of an application message of the sender. -/
def AcceptedMessageReceipt.isApplicationOf (sender : String) (receipt : AcceptedMessageReceipt) :
    Bool :=
  receipt.messageType = .application && receipt.senderUserId = sender

/-- When a receipt was accepted. -/
def acceptedAtOf (e : String × AcceptedMessageReceipt) : ℤ := e.2.acceptedAt

/-- The room keys of the receipts are made of relay ids. -/
def RelayKeys (receipts : Receipts) : Prop :=
  ∀ receipt ∈ receipts.values, ∃ teamId roomId : RelayId, receipt.roomKey = roomKey teamId roomId

/-! ### Pools -/

section Pools

variable {a b : AcceptedMessageReceipt}

theorem samePool_refl (a : AcceptedMessageReceipt) : a.samePool a = true := by
  simp [AcceptedMessageReceipt.samePool]

/-- What a pool key adds to the room key. -/
def poolSuffix (r : AcceptedMessageReceipt) : List Char :=
  match r.messageType with
  | .commit => "commit".toList
  | .application => "application".toList ++ '\x00' :: r.senderUserId.toList

/-- A pool key says which pool it is of, when the room keys have no NUL. -/
theorem acceptedReceiptPoolKey_eq_iff (ha : '\x00' ∉ a.roomKey.toList)
    (hb : '\x00' ∉ b.roomKey.toList) :
    acceptedReceiptPoolKey a = acceptedReceiptPoolKey b ↔ a.samePool b = true := by
  have hlist : ∀ r : AcceptedMessageReceipt, (acceptedReceiptPoolKey r).toList =
      r.roomKey.toList ++ '\x00' :: poolSuffix r := by
    intro r
    unfold acceptedReceiptPoolKey poolSuffix
    cases r.messageType <;> simp
  unfold AcceptedMessageReceipt.samePool
  constructor
  · intro h
    have heq := congrArg String.toList h
    rw [hlist, hlist] at heq
    obtain ⟨hroom, hrest⟩ := append_separator_inj ha hb heq
    have hroom' : a.roomKey = b.roomKey := String.toList_inj.mp hroom
    unfold poolSuffix at hrest
    cases hta : a.messageType <;> cases htb : b.messageType <;> rw [hta, htb] at hrest
    · have hsender := List.append_cancel_left hrest
      have hsender' : a.senderUserId = b.senderUserId :=
        String.toList_inj.mp (List.cons.inj hsender).2
      simp [hroom', hsender']
    · simp at hrest
    · simp at hrest
    · simp [hroom']
  · intro h
    unfold acceptedReceiptPoolKey
    cases hta : a.messageType <;> cases htb : b.messageType <;> simp_all

end Pools

/-! ### What a prune drops -/

section Dropping

variable {now : Instant} {key : RoomKey} {receipts : Receipts} {id : String}
  {receipt : AcceptedMessageReceipt}

/-- The newest receipts of a pool. -/
abbrev newestOf (l : List (String × AcceptedMessageReceipt)) :
    List (String × AcceptedMessageReceipt) :=
  l.newest acceptedAtOf maxAcceptedReceiptsPerPool

theorem mem_livePool_iff {other : AcceptedMessageReceipt} :
    (id, receipt) ∈ livePool now receipts other ↔ receipts.get id = some receipt ∧
      isOutdatedReceipt now receipt = false ∧ receipt.samePool other = true := by
  rw [livePool, List.mem_filter, InsertionMap.mem_entries_iff, Bool.and_eq_true, Bool.not_eq_true']

/-- A receipt is capped when it is not among the newest of its list. -/
theorem mem_oldestBeyond_iff {l : List (String × AcceptedMessageReceipt)}
    (hl : l.Sublist receipts.entries) (hid : receipts.get id = some receipt) :
    id ∈ oldestBeyond AcceptedMessageReceipt.acceptedAt maxAcceptedReceiptsPerPool l ↔
      (id, receipt) ∈ l ∧ (id, receipt) ∉ newestOf l :=
  mem_oldestBeyond hl hid

/-- Capping a part of the sorted receipts of a room is capping that part of the receipts. -/
theorem idsBeyond_filter (p q : String × AcceptedMessageReceipt → Bool) (maximum : ℕ)
    (l : List (String × AcceptedMessageReceipt)) :
    idsBeyond maximum (((l.insertionSort fun a b ↦ a.2.acceptedAt ≤ b.2.acceptedAt).filter p).filter
        q) =
      oldestBeyond AcceptedMessageReceipt.acceptedAt maximum (l.filter fun e ↦ p e && q e) := by
  rw [List.filter_filter]
  show idsBeyond maximum (List.filter _ (l.insertionSort fun a b ↦ acceptedAtOf a ≤ acceptedAtOf b))
    = _
  rw [List.filter_insertionSort_le]
  simp only [Bool.and_comm]
  rfl

/-- The receipts of a room, oldest first, as `pruneAcceptedReceipts` takes them. -/
abbrev roomReceipts (key : RoomKey) (receipts : Receipts) :
    List (String × AcceptedMessageReceipt) :=
  (receipts.entries.filter fun e ↦ e.2.roomKey = key).insertionSort
    fun a b ↦ a.2.acceptedAt ≤ b.2.acceptedAt

/-- The live receipts of a room that are of one kind are one pool. -/
theorem filter_eq_livePool (q : AcceptedMessageReceipt → Bool)
    (hq : ∀ other : AcceptedMessageReceipt, other.roomKey = receipt.roomKey →
      q other = other.samePool receipt) :
    ((receipts.entries.filter fun e ↦ e.2.roomKey = receipt.roomKey).filter fun e ↦
        !isOutdatedReceipt now e.2 && q e.2) = livePool now receipts receipt := by
  rw [List.filter_filter, livePool]
  refine List.filter_congr fun e _ ↦ ?_
  by_cases hroom : e.2.roomKey = receipt.roomKey
  · rw [decide_eq_true hroom, Bool.and_true, hq e.2 hroom]
  · have hpool : e.2.samePool receipt = false := by
      simp [AcceptedMessageReceipt.samePool, hroom]
    rw [decide_eq_false hroom, Bool.and_false, hpool, Bool.and_false]

/-- Whom the cap of one kind of a room's receipts drops. -/
theorem mem_beyond_iff (now : Instant) (key : RoomKey) (hid : receipts.get id = some receipt)
    (q : AcceptedMessageReceipt → Bool)
    (hq : q receipt = true → ∀ other : AcceptedMessageReceipt, other.roomKey = receipt.roomKey →
      q other = other.samePool receipt) :
    id ∈ idsBeyond maxAcceptedReceiptsPerPool (((roomReceipts key receipts).filter fun e ↦
        !isOutdatedReceipt now e.2).filter fun e ↦ q e.2) ↔
      receipt.roomKey = key ∧ isOutdatedReceipt now receipt = false ∧ q receipt = true ∧
        (id, receipt) ∉ newestOf (livePool now receipts receipt) := by
  rw [idsBeyond_filter,
    mem_oldestBeyond_iff (List.filter_sublist.trans List.filter_sublist) hid, List.mem_filter,
    List.mem_filter, InsertionMap.mem_entries_iff, and_iff_right hid, decide_eq_true_eq,
    Bool.and_eq_true, Bool.not_eq_true', and_assoc, and_assoc]
  refine and_congr_right fun hroom ↦ and_congr_right fun _ ↦ and_congr_right fun hkind ↦ ?_
  subst hroom
  rw [filter_eq_livePool q (hq hkind)]

theorem mem_outdated_iff (hid : receipts.get id = some receipt) :
    id ∈ (((roomReceipts key receipts).filter fun e ↦ isOutdatedReceipt now e.2).map Prod.fst) ↔
      receipt.roomKey = key ∧ isOutdatedReceipt now receipt = true := by
  rw [List.mem_map]
  constructor
  · rintro ⟨⟨id', other⟩, he, rfl⟩
    obtain ⟨he, hold⟩ := List.mem_filter.mp he
    obtain ⟨hmem, hroom⟩ := List.mem_filter.mp ((List.mem_insertionSort _).mp he)
    have hget := InsertionMap.mem_entries_iff.mp hmem
    rw [hid] at hget
    obtain rfl := Option.some.inj hget
    exact ⟨of_decide_eq_true hroom, hold⟩
  · rintro ⟨hroom, hold⟩
    refine ⟨(id, receipt), List.mem_filter.mpr ⟨(List.mem_insertionSort _).mpr ?_, hold⟩, rfl⟩
    exact List.mem_filter.mpr ⟨InsertionMap.mem_entries_iff.mpr hid, decide_eq_true hroom⟩

/-- **What the prune after a publish drops**: of its room, what is outdated or crowded out of its
own pool. -/
theorem mem_receiptsToPrune_iff (hid : receipts.get id = some receipt) :
    id ∈ receiptsToPrune now key receipts ↔ receipt.roomKey = key ∧
      (isOutdatedReceipt now receipt = true ∨
        (id, receipt) ∉ newestOf (livePool now receipts receipt)) := by
  have hcommits := mem_beyond_iff now key hid (fun other ↦ other.messageType = .commit)
    fun hcommit other hroom ↦ by simp_all [AcceptedMessageReceipt.samePool]
  have happlications : ∀ sender, _ := fun sender ↦ mem_beyond_iff now key hid
    (fun other ↦ other.senderUserId = sender && other.messageType = .application)
    fun hkind other hroom ↦ by
      simp_all [AcceptedMessageReceipt.samePool]
      cases other.messageType <;> simp
  have hmerge : ∀ (sender : String) (l : List (String × AcceptedMessageReceipt)),
      (l.filter fun e ↦ e.2.messageType = .application).filter
          (fun e ↦ e.2.senderUserId = sender) =
        l.filter fun e ↦ e.2.senderUserId = sender && e.2.messageType = .application :=
    fun _ _ ↦ List.filter_filter
  rw [receiptsToPrune, List.mem_append, List.mem_append, mem_outdated_iff hid, hcommits,
    List.mem_flatMap]
  constructor
  · rintro ((⟨hroom, hold⟩ | ⟨hroom, -, -, hnew⟩) | ⟨sender, -, hbeyond⟩)
    · exact ⟨hroom, .inl hold⟩
    · exact ⟨hroom, .inr hnew⟩
    · rw [hmerge, happlications] at hbeyond
      exact ⟨hbeyond.1, .inr hbeyond.2.2.2⟩
  · rintro ⟨hroom, hdropped⟩
    cases hold : isOutdatedReceipt now receipt with
    | true => exact .inl (.inl ⟨hroom, rfl⟩)
    | false =>
      have hnew := hdropped.resolve_left (by rw [hold]; decide)
      cases hkind : receipt.messageType with
      | commit => exact .inl (.inr ⟨hroom, rfl, decide_eq_true rfl, hnew⟩)
      | application =>
        refine .inr ⟨receipt.senderUserId, List.mem_dedup.mpr (List.mem_map.mpr
          ⟨(id, receipt), ?_, rfl⟩), ?_⟩
        · refine List.mem_filter.mpr ⟨List.mem_filter.mpr ⟨(List.mem_insertionSort _).mpr ?_, ?_⟩,
            decide_eq_true hkind⟩
          · exact List.mem_filter.mpr
              ⟨InsertionMap.mem_entries_iff.mpr hid, decide_eq_true hroom⟩
          · rw [hold]
            rfl
        · rw [hmerge, happlications, hkind]
          exact ⟨hroom, hold, by simp, hnew⟩

/-- What is in no list of receipts is not capped in it. -/
theorem mem_of_mem_oldestBeyond {l : List (String × AcceptedMessageReceipt)}
    (h : id ∈ oldestBeyond AcceptedMessageReceipt.acceptedAt maxAcceptedReceiptsPerPool l) :
    ∃ other, (id, other) ∈ l := by
  obtain ⟨⟨id', other⟩, he, rfl⟩ := List.mem_map.mp h
  exact ⟨other, (List.mem_insertionSort _).mp (List.mem_of_mem_take he)⟩

/-- The live receipts under one pool key are one pool. -/
theorem filter_poolKey_eq_livePool (hkeys : RelayKeys receipts)
    (hid : receipts.get id = some receipt) :
    ((receipts.filter fun _ other ↦ !isOutdatedReceipt now other).entries.filter fun e ↦
        acceptedReceiptPoolKey e.2 = acceptedReceiptPoolKey receipt) =
      livePool now receipts receipt := by
  have hnul : ∀ other ∈ receipts.values, '\x00' ∉ other.roomKey.toList := by
    intro other hother
    obtain ⟨teamId, roomId, heq⟩ := hkeys other hother
    rw [heq]
    exact nul_not_mem_roomKey teamId roomId
  show (List.filter _ receipts.entries).filter _ = _
  rw [List.filter_filter, livePool]
  refine List.filter_congr fun e he ↦ ?_
  have hiff := acceptedReceiptPoolKey_eq_iff (hnul e.2 (List.mem_map_of_mem he))
    (hnul receipt (InsertionMap.mem_values_iff.mpr ⟨id, hid⟩))
  have hpool : decide (acceptedReceiptPoolKey e.2 = acceptedReceiptPoolKey receipt) =
      e.2.samePool receipt := by
    rw [Bool.eq_iff_iff, decide_eq_true_eq, hiff]
  rw [hpool, Bool.and_comm]

/-- The receipts that `pruneAcceptedMessageReceipts` caps, pool by pool. -/
def beyondPools (live : Receipts) : List String :=
  (live.values.map acceptedReceiptPoolKey).dedup.flatMap fun pool ↦
    oldestBeyond AcceptedMessageReceipt.acceptedAt maxAcceptedReceiptsPerPool
      (live.entries.filter fun e ↦ acceptedReceiptPoolKey e.2 = pool)

theorem acceptedMessageReceipts_pruneAcceptedMessageReceipts (now : Instant) (s : RelayStore) :
    (s.pruneAcceptedMessageReceipts now).acceptedMessageReceipts =
      (s.acceptedMessageReceipts.filter fun _ other ↦ !isOutdatedReceipt now other).filter
        fun id _ ↦ !decide (id ∈ beyondPools
          (s.acceptedMessageReceipts.filter fun _ other ↦ !isOutdatedReceipt now other)) := rfl

/-- **What the prune of the store keeps**: what is not outdated and not crowded out of its own
pool. -/
theorem get_pruneAcceptedMessageReceipts (s : RelayStore)
    (hkeys : RelayKeys s.acceptedMessageReceipts) :
    (s.pruneAcceptedMessageReceipts now).acceptedMessageReceipts.get id = some receipt ↔
      (id, receipt) ∈ newestOf (livePool now s.acceptedMessageReceipts receipt) := by
  rw [acceptedMessageReceipts_pruneAcceptedMessageReceipts, InsertionMap.get_filter,
    Option.filter_eq_some_iff, Bool.not_eq_true', decide_eq_false_iff_not, beyondPools,
    List.mem_flatMap]
  constructor
  · rintro ⟨hlive, hkept⟩
    have hid : s.acceptedMessageReceipts.get id = some receipt := by
      rw [InsertionMap.get_filter] at hlive
      exact (Option.filter_eq_some_iff.mp hlive).1
    by_contra hnew
    refine hkept ⟨acceptedReceiptPoolKey receipt, List.mem_dedup.mpr (List.mem_map_of_mem
      (InsertionMap.mem_values_iff.mpr ⟨id, hlive⟩)), ?_⟩
    rw [mem_oldestBeyond_iff List.filter_sublist hlive, filter_poolKey_eq_livePool hkeys hid]
    refine ⟨?_, hnew⟩
    rw [← filter_poolKey_eq_livePool hkeys hid]
    exact List.mem_filter.mpr ⟨InsertionMap.mem_entries_iff.mpr hlive, decide_eq_true rfl⟩
  · intro hnew
    obtain ⟨hid, hfresh, -⟩ := mem_livePool_iff.mp (List.mem_of_mem_newest hnew)
    have hlive : (s.acceptedMessageReceipts.filter fun _ other ↦
        !isOutdatedReceipt now other).get id = some receipt := by
      rw [InsertionMap.get_filter]
      exact Option.filter_eq_some_iff.mpr ⟨hid, by rw [hfresh]; rfl⟩
    refine ⟨hlive, ?_⟩
    rintro ⟨pool, -, hbeyond⟩
    obtain ⟨hmem, hold⟩ := (mem_oldestBeyond_iff List.filter_sublist hlive).mp hbeyond
    obtain rfl := of_decide_eq_true (List.mem_filter.mp hmem).2
    rw [filter_poolKey_eq_livePool hkeys hid] at hold
    exact hold hnew

/-- **What the prune after a publish keeps**: the same, of its room, and all of the others. -/
theorem get_pruneAcceptedReceipts (s : RelayStore) :
    (pruneAcceptedReceipts now key s).acceptedMessageReceipts.get id = some receipt ↔
      s.acceptedMessageReceipts.get id = some receipt ∧ (receipt.roomKey = key →
        (id, receipt) ∈ newestOf (livePool now s.acceptedMessageReceipts receipt)) := by
  show (s.acceptedMessageReceipts.filter fun other _ ↦ !decide (other ∈ receiptsToPrune now key
    s.acceptedMessageReceipts)).get id = some receipt ↔ _
  rw [InsertionMap.get_filter, Option.filter_eq_some_iff, Bool.not_eq_true',
    decide_eq_false_iff_not]
  refine and_congr_right fun hid ↦ ?_
  rw [mem_receiptsToPrune_iff hid, not_and, not_or, not_not, Bool.not_eq_true]
  refine imp_congr_right fun _ ↦ ⟨And.right, fun hnew ↦ ⟨?_, hnew⟩⟩
  exact (mem_livePool_iff.mp (List.mem_of_mem_newest hnew)).2.1

end Dropping

/-! ### Floods -/

/-- A receipt on its way into a store, under its id. -/
structure Arrival where
  now : Instant
  id : String
  receipt : AcceptedMessageReceipt

namespace RelayStore

/-- What the prune after a publish does to the receipts. -/
def pruneAt (s : RelayStore) (a : Arrival) : RelayStore :=
  pruneAcceptedReceipts a.now a.receipt.roomKey s

/-- What a publish does to the receipts. A message that has a receipt is answered from it. -/
@[grind =] def acceptReceipt (s : RelayStore) (a : Arrival) : RelayStore :=
  if s.acceptedMessageReceipts.has a.id then s
  else (s.set .acceptedMessageReceipts a.id a.receipt).pruneAt a

/-- The receipts that are not of application messages of the sender. -/
@[grind =] def receiptsBeside (sender : String) (s : RelayStore) : Receipts :=
  s.acceptedMessageReceipts.filter fun _ receipt ↦ !receipt.isApplicationOf sender

end RelayStore

section Floods

variable {now : Instant} {key : RoomKey} {s t : RelayStore} {sender : String} {a : Arrival}
  {id : String} {receipt : AcceptedMessageReceipt}

/-- A publish stages its receipt as an arrival. -/
theorem acceptReceipt_eq_stagePublish (P : Platform) (room : RoomRecord)
    (message : MlsRelayMessage) (hkey : key = roomKey message.teamId message.roomId)
    (h : s.acceptedMessageReceipts.has (receiptKey key message.id) = false) :
    (s.acceptReceipt ⟨now, receiptKey key message.id,
      P.receiptFor now key message⟩).acceptedMessageReceipts =
      (P.stagePublish now room message s).acceptedMessageReceipts := by
  subst hkey
  rw [acceptedMessageReceipts_stagePublish, RelayStore.acceptReceipt, h]
  exact acceptedMessageReceipts_pruneAcceptedReceipts now _ _

theorem isApplicationOf_of_samePool {other : AcceptedMessageReceipt}
    (h : other.samePool receipt = true) :
    other.isApplicationOf sender = receipt.isApplicationOf sender := by
  rw [AcceptedMessageReceipt.samePool, Bool.and_eq_true, Bool.and_eq_true, decide_eq_true_eq,
    decide_eq_true_eq] at h
  obtain ⟨⟨-, hkind⟩, hsender⟩ := h
  rw [AcceptedMessageReceipt.isApplicationOf, AcceptedMessageReceipt.isApplicationOf, hkind]
  cases hcommit : receipt.messageType with
  | commit => rfl
  | application =>
    rw [hkind, hcommit] at hsender
    rw [of_decide_eq_true (p := other.senderUserId = receipt.senderUserId) (by simpa using hsender)]

/-- A pool beside the sender's is not touched by leaving out what is the sender's. -/
theorem livePool_receiptsBeside (h : receipt.isApplicationOf sender = false) :
    livePool now (s.receiptsBeside sender) receipt =
      livePool now s.acceptedMessageReceipts receipt := by
  show (List.filter _ s.acceptedMessageReceipts.entries).filter _ = _
  rw [List.filter_filter, livePool]
  refine List.filter_congr fun e _ ↦ ?_
  cases hpool : e.2.samePool receipt with
  | false => rw [Bool.and_false, Bool.false_and]
  | true =>
    have hbeside : e.2.isApplicationOf sender = false :=
      (isApplicationOf_of_samePool hpool).trans h
    show (_ && !e.2.isApplicationOf sender) = _
    rw [hbeside, Bool.not_false, Bool.and_true]

theorem acceptedMessageReceipts_prune (now : Instant) (key : RoomKey) (s : RelayStore) :
    (pruneAcceptedReceipts now key s).acceptedMessageReceipts =
      s.acceptedMessageReceipts.filter fun id _ ↦
        !decide (id ∈ receiptsToPrune now key s.acceptedMessageReceipts) := rfl

open scoped Classical in
/-- What a prune leaves beside a sender depends only on what was there. -/
theorem receiptsBeside_pruneAt (s : RelayStore) (a : Arrival) (sender : String) :
    (s.pruneAt a).receiptsBeside sender = (s.receiptsBeside sender).filter fun id receipt ↦
      decide (receipt.roomKey = a.receipt.roomKey → isOutdatedReceipt a.now receipt = false ∧
        (id, receipt) ∈ newestOf (livePool a.now (s.receiptsBeside sender) receipt)) := by
  rw [RelayStore.receiptsBeside, RelayStore.receiptsBeside, RelayStore.pruneAt,
    acceptedMessageReceipts_prune, InsertionMap.filter_filter, InsertionMap.filter_filter]
  refine InsertionMap.filter_congr fun id receipt hid ↦ ?_
  cases hbeside : receipt.isApplicationOf sender with
  | true => rw [Bool.not_true, Bool.and_false, Bool.false_and]
  | false =>
    rw [Bool.not_false, Bool.and_true, Bool.true_and, ← decide_not, decide_eq_decide,
      mem_receiptsToPrune_iff hid, ← RelayStore.receiptsBeside, livePool_receiptsBeside hbeside,
      not_and, not_or, not_not, Bool.not_eq_true]

/-- A fresh application receipt of the sender leaves what is beside it. -/
theorem receiptsBeside_set (h : s.acceptedMessageReceipts.has a.id = false)
    (ha : a.receipt.isApplicationOf sender = true) :
    (s.set .acceptedMessageReceipts a.id a.receipt).receiptsBeside sender =
      s.receiptsBeside sender :=
  InsertionMap.filter_set_of_neg (InsertionMap.get_eq_none_of_not_has (Bool.not_eq_true _ ▸ h))
    (by rw [ha]; rfl)

/-- **A publish of the sender leaves beside it what its prune alone would leave.** -/
theorem receiptsBeside_acceptReceipt (h : s.receiptsBeside sender = t.receiptsBeside sender)
    (hfresh : s.acceptedMessageReceipts.has a.id = false)
    (ha : a.receipt.isApplicationOf sender = true) :
    (s.acceptReceipt a).receiptsBeside sender = (t.pruneAt a).receiptsBeside sender := by
  rw [RelayStore.acceptReceipt, hfresh, if_neg Bool.false_ne_true, receiptsBeside_pruneAt,
    receiptsBeside_pruneAt, receiptsBeside_set hfresh ha, h]

/-- A flood leaves beside the sender what the prunes of its publishes alone would leave. -/
theorem receiptsBeside_flood (arrivals : List Arrival)
    (harrivals : ∀ a ∈ arrivals, a.receipt.isApplicationOf sender = true)
    (h : s.receiptsBeside sender = t.receiptsBeside sender) :
    ∃ accepted : List Arrival, accepted.Sublist arrivals ∧
      (arrivals.foldl RelayStore.acceptReceipt s).receiptsBeside sender =
        (accepted.foldl RelayStore.pruneAt t).receiptsBeside sender := by
  induction arrivals generalizing s t with
  | nil => exact ⟨[], .slnil, h⟩
  | cons a arrivals ih =>
    obtain ⟨ha, harrivals⟩ := List.forall_mem_cons.mp harrivals
    cases hhas : s.acceptedMessageReceipts.has a.id with
    | true =>
      obtain ⟨accepted, hsub, heq⟩ := ih harrivals h
      refine ⟨accepted, hsub.cons a, ?_⟩
      rw [List.foldl_cons, RelayStore.acceptReceipt, if_pos hhas, heq]
    | false =>
      obtain ⟨accepted, hsub, heq⟩ := ih harrivals (receiptsBeside_acceptReceipt h hhas ha)
      exact ⟨a :: accepted, hsub.cons_cons a, heq⟩

/-- All receipts of a pool, outdated or not. -/
def pool (receipts : Receipts) (receipt : AcceptedMessageReceipt) :
    List (String × AcceptedMessageReceipt) :=
  receipts.entries.filter fun e ↦ e.2.samePool receipt

/-- A receipt among the newest of its pool outlives the prunes that do not find it outdated. -/
theorem newestOf_pool_prunes (arrivals : List Arrival)
    (hlive : ∀ a ∈ arrivals, isOutdatedReceipt a.now receipt = false)
    (h : (id, receipt) ∈ newestOf (pool s.acceptedMessageReceipts receipt)) :
    (id, receipt) ∈
      newestOf (pool (arrivals.foldl RelayStore.pruneAt s).acceptedMessageReceipts receipt) := by
  induction arrivals generalizing s with
  | nil => exact h
  | cons a arrivals ih =>
    obtain ⟨ha, hlive⟩ := List.forall_mem_cons.mp hlive
    refine ih hlive ?_
    have hid : s.acceptedMessageReceipts.get id = some receipt :=
      InsertionMap.mem_entries_iff.mp (List.mem_filter.mp (List.mem_of_mem_newest h)).1
    have hpool : livePool a.now s.acceptedMessageReceipts receipt =
        (pool s.acceptedMessageReceipts receipt).filter
          fun e ↦ !isOutdatedReceipt a.now e.2 := by
      rw [pool, List.filter_filter]
      rfl
    have hnew : (id, receipt) ∈ newestOf (livePool a.now s.acceptedMessageReceipts receipt) := by
      rw [hpool]
      exact List.mem_newest_filter _ h (by rw [ha]; rfl)
    have hkept : id ∉ receiptsToPrune a.now a.receipt.roomKey s.acceptedMessageReceipts := by
      rw [mem_receiptsToPrune_iff hid]
      rintro ⟨-, hold | hold⟩
      · rw [ha] at hold
        cases hold
      · exact hold hnew
    have hpruned : pool (s.pruneAt a).acceptedMessageReceipts receipt =
        (pool s.acceptedMessageReceipts receipt).filter fun e ↦
          !decide (e.1 ∈ receiptsToPrune a.now a.receipt.roomKey s.acceptedMessageReceipts) := by
      show (List.filter _ s.acceptedMessageReceipts.entries).filter _ = _
      rw [pool, List.filter_filter, List.filter_filter]
      exact List.filter_congr fun e _ ↦ Bool.and_comm _ _
    rw [hpruned]
    exact List.mem_newest_filter _ h (by rw [decide_eq_false hkept]; rfl)

/-- **A flood evicts no receipt of another pool**: whatever was among the newest of its own pool is
still there, as long as it is not outdated. -/
theorem get_flood (arrivals : List Arrival)
    (harrivals : ∀ a ∈ arrivals, a.receipt.isApplicationOf sender = true)
    (hbeside : receipt.isApplicationOf sender = false)
    (hlive : ∀ a ∈ arrivals, isOutdatedReceipt a.now receipt = false)
    (h : (id, receipt) ∈ newestOf (pool s.acceptedMessageReceipts receipt)) :
    (arrivals.foldl RelayStore.acceptReceipt s).acceptedMessageReceipts.get id = some receipt := by
  obtain ⟨accepted, hsub, heq⟩ := receiptsBeside_flood (s := s) arrivals harrivals rfl
  have hkept := newestOf_pool_prunes accepted (fun a ha ↦ hlive a (hsub.subset ha)) h
  have hstored : (accepted.foldl RelayStore.pruneAt s).acceptedMessageReceipts.get id =
      some receipt :=
    InsertionMap.mem_entries_iff.mp (List.mem_filter.mp (List.mem_of_mem_newest hkept)).1
  have hget : ((arrivals.foldl RelayStore.acceptReceipt s).receiptsBeside sender).get id =
      some receipt := by
    rw [heq, RelayStore.receiptsBeside, InsertionMap.get_filter, hstored,
      Option.filter_some_pos (by rw [hbeside]; rfl)]
  rw [RelayStore.receiptsBeside, InsertionMap.get_filter] at hget
  exact (Option.filter_eq_some_iff.mp hget).1

end Floods

/-! ### The two prunes -/

section Prunes

variable {now : Instant} {key : RoomKey} {s : RelayStore}

/-- Of its room, the prune after a publish keeps the newest live receipts of each pool. -/
theorem get_pruneAcceptedReceipts_of_room {id : String} {receipt : AcceptedMessageReceipt}
    (h : receipt.roomKey = key) :
    (pruneAcceptedReceipts now key s).acceptedMessageReceipts.get id = some receipt ↔
      (id, receipt) ∈ newestOf (livePool now s.acceptedMessageReceipts receipt) := by
  rw [get_pruneAcceptedReceipts]
  refine ⟨fun hkept ↦ hkept.2 h, fun hnew ↦ ⟨?_, fun _ ↦ hnew⟩⟩
  exact (mem_livePool_iff.mp (List.mem_of_mem_newest hnew)).1

/-- **The two prunes keep the same of a room**, in the same order. -/
theorem filter_prunes (hkeys : RelayKeys s.acceptedMessageReceipts) :
    ((pruneAcceptedReceipts now key s).acceptedMessageReceipts.filter
        fun _ receipt ↦ receipt.roomKey = key) =
      (s.pruneAcceptedMessageReceipts now).acceptedMessageReceipts.filter
        fun _ receipt ↦ receipt.roomKey = key := by
  obtain ⟨p, hp⟩ : ∃ p, (s.pruneAcceptedMessageReceipts now).acceptedMessageReceipts =
      s.acceptedMessageReceipts.filter p := by
    rw [acceptedMessageReceipts_pruneAcceptedMessageReceipts, InsertionMap.filter_filter]
    exact ⟨_, rfl⟩
  rw [acceptedMessageReceipts_prune, hp, InsertionMap.filter_filter, InsertionMap.filter_filter]
  refine InsertionMap.filter_eq_filter fun id receipt ↦ ?_
  rw [← InsertionMap.filter_filter, ← InsertionMap.filter_filter, ← hp,
    ← acceptedMessageReceipts_prune, InsertionMap.get_filter, InsertionMap.get_filter,
    Option.filter_eq_some_iff, Option.filter_eq_some_iff, decide_eq_true_eq, and_congr_left_iff]
  intro hroom
  rw [get_pruneAcceptedReceipts_of_room hroom, get_pruneAcceptedMessageReceipts s hkeys]

/-- The prune after a publish leaves the other rooms alone. -/
theorem filter_prune_of_ne : ((pruneAcceptedReceipts now key s).acceptedMessageReceipts.filter
      fun _ receipt ↦ receipt.roomKey ≠ key) =
    s.acceptedMessageReceipts.filter fun _ receipt ↦ receipt.roomKey ≠ key := by
  rw [acceptedMessageReceipts_prune, InsertionMap.filter_filter]
  refine InsertionMap.filter_congr fun id receipt hid ↦ ?_
  by_cases hroom : receipt.roomKey = key
  · simp [hroom]
  · have hkept : id ∉ receiptsToPrune now key s.acceptedMessageReceipts := fun hpruned ↦
      hroom ((mem_receiptsToPrune_iff hid).mp hpruned).1
    rw [decide_eq_false hkept, Bool.not_false, Bool.true_and]

end Prunes

/-- A store with one Commit receipt. -/
def storeOfOneReceipt : RelayStore :=
  ({} : RelayStore).set .acceptedMessageReceipts (receiptKey (roomKey "team" "room") "m")
    { roomKey := roomKey "team" "room", messageId := "m", messageType := .commit,
      senderUserId := "github:1", senderDeviceId := "d", parentEpoch := 0, digest := "",
      acceptedAt := 0 }

end MultAIplayer
