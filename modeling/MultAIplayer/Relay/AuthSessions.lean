import MultAIplayer.Lib.InsertionMap
import MultAIplayer.Lib.Newest
import MultAIplayer.Protocol.Records
import Mathlib.Data.String.Basic

/-!
# Retained sessions

Which sessions the relay evicts (`auth/session.ts`). A user keeps the sessions that expire last, as
many as there are slots. A sign-in evicts the user's sessions and reserves a slot for the new one;
loading the store evicts for every user.

The sessions of all users are in one map. What is evicted for a user is decided by the user's own
sessions alone, so that a load comes to `retained` for every user, whatever the order of the users
(`sessionsOf_pruneRetainedAuthSessions`).
-/

namespace MultAIplayer

/-- The order in which sessions are evicted. The keys are digests in hexadecimal digits, which
`localeCompare` orders by their characters. -/
def ExpiresFirst (a b : String × AuthSession) : Prop :=
  a.2.expiresAt < b.2.expiresAt ∨ a.2.expiresAt = b.2.expiresAt ∧ a.1 ≤ b.1

instance : DecidableRel ExpiresFirst := fun a b ↦
  inferInstanceAs (Decidable (a.2.expiresAt < b.2.expiresAt ∨ _))

def selectAuthSessionsToEvict (authSessions : InsertionMap String AuthSession) (userId : String)
    (cap reservedSlots : ℕ) (now : Instant) : List (String × AuthSession) :=
  let owned := (authSessions.entries.filter fun p ↦ p.2.user.id = userId).insertionSort ExpiresFirst
  let expired := owned.filter fun p ↦ p.2.expiresAt ≤ now
  let active := owned.filter fun p ↦ now < p.2.expiresAt
  let retainedSlots := cap - reservedSlots
  expired ++ active.take (active.length - retainedSlots)

/-- The inner loop of `pruneRetainedAuthSessions`, with the number of sessions removed so far. -/
def removeAuthSessions (pruned : InsertionMap String AuthSession × ℕ)
    (evicted : List (String × AuthSession)) : InsertionMap String AuthSession × ℕ :=
  evicted.foldl (fun pruned p ↦
    if pruned.1.has p.1 then (pruned.1.delete p.1, pruned.2 + 1) else pruned) pruned

/-- The loop of `pruneRetainedAuthSessions` over the users. -/
def pruneUsers (cap : ℕ) (now : Instant) (pruned : InsertionMap String AuthSession × ℕ)
    (userIds : List String) : InsertionMap String AuthSession × ℕ :=
  userIds.foldl (fun pruned userId ↦
    removeAuthSessions pruned (selectAuthSessionsToEvict pruned.1 userId cap 0 now)) pruned

def pruneRetainedAuthSessions (authSessions : InsertionMap String AuthSession) (cap : ℕ)
    (now : Instant) : InsertionMap String AuthSession × ℕ :=
  pruneUsers cap now (authSessions, 0)
    (authSessions.values.map fun session ↦ session.user.id).eraseDups

/-! ### The sessions of a user -/

def sessionsOf (authSessions : InsertionMap String AuthSession) (userId : String) :
    List (String × AuthSession) :=
  authSessions.entries.filter fun p ↦ p.2.user.id = userId

/-- The sessions among some that have not expired. -/
def liveSessions (now : Instant) (sessions : List (String × AuthSession)) :
    List (String × AuthSession) :=
  sessions.filter fun p ↦ now < p.2.expiresAt

/-- What a user keeps of their sessions. -/
@[grind =] def retained (slots : ℕ) (now : Instant) (sessions : List (String × AuthSession)) :
    List (String × AuthSession) :=
  (liveSessions now sessions).filter fun p ↦
    p ∉ (liveSessions now sessions).beyondLast ExpiresFirst slots

instance : IsTrans (String × AuthSession) ExpiresFirst where
  trans a b c hab hbc := by
    rcases hab with hab | ⟨hab, hkeys⟩ <;> rcases hbc with hbc | ⟨hbc, hkeys'⟩
    · exact .inl (lt_trans hab hbc)
    · exact .inl (hbc ▸ hab)
    · exact .inl (hab ▸ hbc)
    · exact .inr ⟨hab.trans hbc, le_trans hkeys hkeys'⟩

instance : Std.Total ExpiresFirst where
  total a b := by
    rcases lt_trichotomy a.2.expiresAt b.2.expiresAt with h | h | h
    · exact .inl (.inl h)
    · exact (le_total a.1 b.1).imp (fun hkeys ↦ .inr ⟨h, hkeys⟩) fun hkeys ↦ .inr ⟨h.symm, hkeys⟩
    · exact .inr (.inl h)

theorem ExpiresFirst.le {a b : String × AuthSession} (h : ExpiresFirst a b) :
    a.2.expiresAt ≤ b.2.expiresAt :=
  h.elim le_of_lt fun h ↦ h.1.le

section Retained

variable {slots : ℕ} {now : Instant} {sessions : List (String × AuthSession)}

theorem mem_liveSessions {p : String × AuthSession} :
    p ∈ liveSessions now sessions ↔ p ∈ sessions ∧ now < p.2.expiresAt := by
  rw [liveSessions, List.mem_filter, decide_eq_true_eq]

theorem length_retained (h : sessions.Nodup) :
    (retained slots now sessions).length = min (liveSessions now sessions).length slots := by
  have hlive : (liveSessions now sessions).Nodup := h.filter _
  rw [retained, List.length_filter_not_mem_beyondLast hlive]

/-- What is kept can be kept again. -/
theorem retained_retained (h : sessions.Nodup) :
    retained slots now (retained slots now sessions) = retained slots now sessions := by
  have hlive : liveSessions now (retained slots now sessions) = retained slots now sessions := by
    refine List.filter_eq_self.mpr fun p hp ↦ decide_eq_true ?_
    exact (mem_liveSessions.mp (List.mem_filter.mp hp).1).2
  have hfew : (retained slots now sessions).length ≤ slots := by
    rw [length_retained h]
    exact min_le_right _ _
  refine List.filter_eq_self.mpr ?_ |>.trans hlive
  rw [hlive, List.beyondLast_eq_nil hfew]
  exact fun p _ ↦ rfl

theorem retained_eq_self (hlive : ∀ p ∈ sessions, now < p.2.expiresAt)
    (hfew : sessions.length ≤ slots) : retained slots now sessions = sessions := by
  have hall : liveSessions now sessions = sessions :=
    List.filter_eq_self.mpr fun p hp ↦ decide_eq_true (hlive p hp)
  rw [retained, hall, List.beyondLast_eq_nil hfew]
  exact List.filter_eq_self.mpr fun p _ ↦ rfl

end Retained

section Sessions

variable {m : InsertionMap String AuthSession} {userId : String} {cap reservedSlots : ℕ}
  {now : Instant}

theorem mem_sessionsOf {p : String × AuthSession} :
    p ∈ sessionsOf m userId ↔ m.get p.1 = some p.2 ∧ p.2.user.id = userId := by
  rw [sessionsOf, List.mem_filter, decide_eq_true_eq, InsertionMap.mem_entries_iff]

theorem nodup_sessionsOf : (sessionsOf m userId).Nodup :=
  (List.Nodup.of_map _ m.nodup_keys).filter _

/-- A session is evicted unless it is live and there is a slot for it. -/
theorem mem_selectAuthSessionsToEvict_iff {p : String × AuthSession} :
    p ∈ selectAuthSessionsToEvict m userId cap reservedSlots now ↔
      p ∈ sessionsOf m userId ∧ p ∉ retained (cap - reservedSlots) now (sessionsOf m userId) := by
  let slots := cap - reservedSlots
  have hactive : ((sessionsOf m userId).insertionSort ExpiresFirst).filter
      (fun p ↦ decide (now < p.2.expiresAt)) =
      (liveSessions now (sessionsOf m userId)).insertionSort ExpiresFirst :=
    List.filter_insertionSort _ _
  let active := ((sessionsOf m userId).insertionSort ExpiresFirst).filter
    fun p ↦ decide (now < p.2.expiresAt)
  have hbeyond : active.take (active.length - slots) =
      (liveSessions now (sessionsOf m userId)).beyondLast ExpiresFirst slots := by
    rw [show active = _ from hactive, List.length_insertionSort]
    rfl
  have hselect : p ∈ selectAuthSessionsToEvict m userId cap reservedSlots now ↔
      (p ∈ sessionsOf m userId ∧ p.2.expiresAt ≤ now) ∨
        p ∈ (liveSessions now (sessionsOf m userId)).beyondLast ExpiresFirst slots := by
    show p ∈ ((sessionsOf m userId).insertionSort ExpiresFirst).filter _ ++
      active.take (active.length - slots) ↔ _
    rw [hbeyond, List.mem_append, List.mem_filter, List.mem_insertionSort, decide_eq_true_eq]
  rw [hselect, retained, List.mem_filter, mem_liveSessions, decide_eq_true_eq]
  constructor
  · rintro (⟨hp, hexpired⟩ | hp)
    · exact ⟨hp, fun h ↦ absurd h.1.2 (not_lt.mpr hexpired)⟩
    · exact ⟨(mem_liveSessions.mp (List.mem_of_mem_beyondLast hp)).1, fun h ↦ h.2 hp⟩
  · rintro ⟨hp, hout⟩
    by_cases hlive : now < p.2.expiresAt
    · exact .inr (by_contra fun h ↦ hout ⟨⟨hp, hlive⟩, h⟩)
    · exact .inl ⟨hp, not_lt.mp hlive⟩

/-! ### Evicting sessions -/

theorem removeAuthSessions_fst (evicted : List (String × AuthSession)) (removed : ℕ) :
    (removeAuthSessions (m, removed) evicted).1 = m.deleteAll (evicted.map Prod.fst) := by
  induction evicted generalizing m removed with
  | nil => exact (InsertionMap.deleteAll_nil m).symm
  | cons p evicted ih =>
    have hrest : m.deleteAll ((p :: evicted).map Prod.fst) =
        (m.delete p.1).deleteAll (evicted.map Prod.fst) :=
      (InsertionMap.deleteAll_delete m p.1 _).symm
    rw [hrest]
    show (removeAuthSessions (if m.has p.1 then _ else _) evicted).1 = _
    split_ifs with hhas
    · exact ih _
    · rw [InsertionMap.delete_eq_self (InsertionMap.get_eq_none_of_not_has hhas)]
      exact ih _

/-- The sessions of a user, without those under some keys. -/
theorem sessionsOf_deleteAll (keys : List String) :
    sessionsOf (m.deleteAll keys) userId =
      (sessionsOf m userId).filter fun p ↦ p.1 ∉ keys := by
  show (m.entries.filter _).filter _ = (m.entries.filter _).filter _
  rw [List.filter_filter, List.filter_filter]
  exact List.filter_congr fun p _ ↦ Bool.and_comm _ _

/-- **Evicting for a user leaves what the user keeps.** -/
theorem sessionsOf_evict_self :
    sessionsOf (m.deleteAll
      ((selectAuthSessionsToEvict m userId cap reservedSlots now).map Prod.fst)) userId =
        retained (cap - reservedSlots) now (sessionsOf m userId) := by
  rw [sessionsOf_deleteAll]
  have hkept : retained (cap - reservedSlots) now (sessionsOf m userId) =
      (sessionsOf m userId).filter fun p ↦
        p ∈ retained (cap - reservedSlots) now (sessionsOf m userId) := by
    unfold retained liveSessions
    rw [List.filter_filter]
    refine List.filter_congr fun p hp ↦ ?_
    rw [Bool.eq_iff_iff, decide_eq_true_eq, List.mem_filter, and_iff_right hp]
  rw [hkept]
  refine List.filter_congr fun p hp ↦ ?_
  -- a key belongs to one session, so that deleting by keys deletes what was selected
  have hkeys : p.1 ∈ (selectAuthSessionsToEvict m userId cap reservedSlots now).map Prod.fst ↔
      p ∈ selectAuthSessionsToEvict m userId cap reservedSlots now := by
    refine ⟨fun h ↦ ?_, List.mem_map_of_mem⟩
    obtain ⟨q, hq, hkey⟩ := List.mem_map.mp h
    have hsome := (mem_sessionsOf.mp (mem_selectAuthSessionsToEvict_iff.mp hq).1).1
    rw [hkey, (mem_sessionsOf.mp hp).1] at hsome
    rwa [show p = q from Prod.ext hkey.symm (Option.some.inj hsome)]
  rw [decide_eq_decide, hkeys, mem_selectAuthSessionsToEvict_iff, and_iff_right hp, not_not]

/-- The sessions of other users stay. -/
theorem sessionsOf_evict_of_ne {other : String} (hne : other ≠ userId) :
    sessionsOf (m.deleteAll
      ((selectAuthSessionsToEvict m userId cap reservedSlots now).map Prod.fst)) other =
        sessionsOf m other := by
  rw [sessionsOf_deleteAll]
  refine List.filter_eq_self.mpr fun p hp ↦ decide_eq_true fun h ↦ ?_
  obtain ⟨q, hq, hkey⟩ := List.mem_map.mp h
  obtain ⟨hget, hown⟩ := mem_sessionsOf.mp (mem_selectAuthSessionsToEvict_iff.mp hq).1
  obtain ⟨hsome, hother⟩ := mem_sessionsOf.mp hp
  rw [hkey, hsome] at hget
  exact hne (hother.symm.trans ((Option.some.inj hget) ▸ hown))

/-- The users that a loop has gone through keep what they may, and the others everything. -/
theorem sessionsOf_pruneUsers (userIds : List String) (removed : ℕ) :
    sessionsOf (pruneUsers cap now (m, removed) userIds).1 userId =
      if userId ∈ userIds then retained cap now (sessionsOf m userId)
      else sessionsOf m userId := by
  induction userIds generalizing m removed with
  | nil => rfl
  | cons first userIds ih =>
    have hpruned := removeAuthSessions_fst (m := m)
      (selectAuthSessionsToEvict m first cap 0 now) removed
    show sessionsOf (pruneUsers cap now (removeAuthSessions (m, removed) _) userIds).1 userId = _
    generalize removeAuthSessions (m, removed) (selectAuthSessionsToEvict m first cap 0 now) =
      pruned at hpruned ⊢
    obtain ⟨pruned, removed'⟩ := pruned
    obtain rfl : pruned = _ := hpruned
    rw [ih]
    rcases eq_or_ne userId first with rfl | hne
    · rw [sessionsOf_evict_self, Nat.sub_zero, retained_retained nodup_sessionsOf, ite_self,
        if_pos List.mem_cons_self]
    · rw [sessionsOf_evict_of_ne hne]
      simp only [List.mem_cons, hne, false_or]

/-- **Every user keeps what they may after a load.** -/
theorem sessionsOf_pruneRetainedAuthSessions :
    sessionsOf (pruneRetainedAuthSessions m cap now).1 userId =
      retained cap now (sessionsOf m userId) := by
  rw [pruneRetainedAuthSessions, sessionsOf_pruneUsers]
  split_ifs with hmem
  · rfl
  · have hnone : sessionsOf m userId = [] := by
      refine List.eq_nil_iff_forall_not_mem.mpr fun p hp ↦ hmem ?_
      obtain ⟨hget, hown⟩ := mem_sessionsOf.mp hp
      rw [List.mem_eraseDups]
      exact List.mem_map.mpr ⟨p.2, InsertionMap.mem_values_iff.mpr ⟨p.1, hget⟩, hown⟩
    rw [hnone]
    rfl

end Sessions

end MultAIplayer
