import MultAIplayer.Relay.InviteRequestSaves
import MultAIplayer.Relay.Transactions

/-!
# Transactions over a store with ceilings

`persistMutationOrRollback` of `http/durable-mutation.ts`, over the edits that a handler stages and
the edits that put them back. The ceilings can refuse an edit of either list: a refused staged edit
escapes the handler, a refused edit of the rollback is rethrown as `RelayMutationRollbackError`.

While a promise is awaited other tasks run; a save that throws leaves them no time.
-/

namespace MultAIplayer

/-- How a transaction ends. -/
inductive TransactionEnd
  | persisted
  | rolledBack
  | refused (error : CapacityError)
  | rollbackFailed (error : CapacityError)
  deriving DecidableEq

/-- An adjustment that every ceiling has room for. -/
theorem DurableEntryCapacity.adjust_of_room {c : DurableEntryCapacity} {delta : ℤ} {teamId : String}
    (hused : c.used + delta ≤ c.maximum)
    (hteam : teamId ≠ "" → c.usedByTeam.count teamId + delta ≤ c.maximumPerTeam) :
    ∃ c', c.adjust delta (some teamId) = .ok c' := by
  unfold adjust
  rw [if_neg fun hover ↦ absurd hover.2 (not_lt.mpr hused)]
  cases htruthy : truthy (some teamId) with
  | none => exact ⟨_, rfl⟩
  | some team =>
    obtain ⟨hteamId, hne⟩ := truthy_eq_some htruthy
    obtain rfl := Option.some.inj hteamId
    exact ⟨_, if_neg fun hover ↦ absurd hover.2 (not_lt.mpr (hteam hne))⟩

namespace BoundedStore

/-- Delete keys, one after the other. -/
def deleteKeys (e : Entity) (ks : List String) (s : BoundedStore) : BoundedStore :=
  ks.foldl (fun s k ↦ (s.apply (.delete e k)).1) s

/-- Carry out an edit. -/
@[grind =] def edit (s : BoundedStore) : StoreEdit → Ended
  | .set e k v => s.apply (.set e k v)
  | .delete e k => s.apply (.delete e k)
  | .deleteWhere e p => (s.deleteKeys e ((s.store.collection e).filter p).keys, none)

/-- Carry out edits until one is refused. -/
def editAll : List StoreEdit → BoundedStore → Ended
  | [], s => (s, none)
  | d :: l, s => (s.edit d).andThen (editAll l)

/-- Put back what was staged. -/
@[grind =] def rollBack (t : Transaction) (s : BoundedStore) : BoundedStore × TransactionEnd :=
  match s.editAll t.rollback with
  | (s, none) => (s, .rolledBack)
  | (s, some error) => (s, .rollbackFailed error)

/-- Stage, persist, and put back what could not be persisted. -/
@[grind =]
def transact (t : Transaction) (call : SaveCall) (others : List StoreOp) (s : BoundedStore) :
    BoundedStore × TransactionEnd :=
  match s.editAll t.stage with
  | (s, some error) => (s, .refused error)
  | (s, none) =>
    match call with
    | .resolves => (s.interrupted others, .persisted)
    | .throws _ => s.rollBack t
    | .rejects => (s.interrupted others).rollBack t

/-! ### One edit -/

variable {s s' : BoundedStore} {d : StoreEdit} {l : List StoreEdit} {e : Entity}

theorem apply_set (he : e ≠ .teamMembers) (k : String) (v : e.Value) :
    s.apply (.set e k v) = s.setTracked e k v := by
  cases e <;> first | rfl | exact absurd rfl he

theorem apply_delete (he : e ≠ .teamMembers) (k : String) :
    s.apply (.delete e k) = (s.deleteTracked e k, none) := by
  cases e <;> first | rfl | exact absurd rfl he

theorem written_delete (h : s.Accounted) (e : Entity) (k : String) :
    s.Written (s.store.toRecords.withCollection e ((s.store.collection e).delete k))
      (s.apply (.delete e k)) := by
  by_cases he : e = .teamMembers
  · subst he
    obtain ⟨haccounted, hceilings⟩ := deleteTeamMembers_accounted h k
    refine ⟨rfl, ?_, haccounted, hceilings⟩
    show (s.deleteTeamMembers k).store.toRecords = _
    unfold deleteTeamMembers
    cases hget : s.store.teamMembers.get k with
    | none =>
      have hget' : (s.store.collection .teamMembers).get k = none := hget
      rw [InsertionMap.delete_eq_self hget', Records.withCollection_collection]
    | some members => rfl
  · rw [apply_delete he]
    exact written_deleteTracked h he k

theorem written_deleteKeys (h : s.Accounted) (e : Entity) (ks : List String) :
    s.Written (s.store.toRecords.withCollection e ((s.store.collection e).deleteAll ks))
      (s.deleteKeys e ks, none) := by
  induction ks generalizing s with
  | nil =>
    rw [InsertionMap.deleteAll_nil, Records.withCollection_collection]
    exact ⟨rfl, rfl, h, rfl, rfl, rfl⟩
  | cons k ks ih =>
    have hfirst := written_delete h e k
    have hrest := ih hfirst.accounted
    refine ⟨rfl, hrest.records.trans ?_, hrest.accounted,
      hfirst.sameCeilings.trans hrest.sameCeilings⟩
    rw [hfirst.records, Records.collection_withCollection_self,
      Records.withCollection_withCollection, InsertionMap.deleteAll_delete]

/-- An edit is carried out, or refused without a trace. -/
theorem edit_settles (h : s.Accounted) (d : StoreEdit) :
    s.Written (s.store.toRecords.edit d) (s.edit d) ∨
      (∃ error, (s.edit d).2 = some error) ∧ s.Unchanged (s.edit d).1 := by
  cases d with
  | set e k v =>
    have hsettles : s.Settles (s.store.set e k v) (s.apply (.set e k v)) := by
      by_cases he : e = .teamMembers
      · subst he
        exact setTeamMembers_settles h k v
      · rw [apply_set he]
        exact setTracked_settles h he k v
    rcases hsettles with ⟨hnone, hstore, haccounted, hceilings⟩ | hrefused
    · exact .inl ⟨hnone, congrArg RelayStore.toRecords hstore, haccounted, hceilings⟩
    · exact .inr hrefused
  | delete e k => exact .inl (written_delete h e k)
  | deleteWhere e p =>
    have hwritten := written_deleteKeys h e ((s.store.collection e).filter p).keys
    rw [InsertionMap.deleteAll_keys_filter] at hwritten
    exact .inl hwritten

/-- A membership map that the ceilings have room for is set. -/
theorem setTeamMembers_of_holds (h : s.Accounted) (teamId : String) (members : TeamMembers)
    (hholds : s.Holds (s.store.set .teamMembers teamId members).toRecords) :
    (s.setTeamMembers teamId members).2 = none := by
  let previous : ℤ := s.store.teamMembers.weightAt
    (fun _ members ↦ Entity.units .teamMembers members) teamId
  have hteamWeight : s.store.teamMembers.weightAt (Entity.teamUnits teamId .teamMembers) teamId =
      previous := by
    show s.store.teamMembers.weightAt _ teamId = s.store.teamMembers.weightAt _ teamId
    unfold InsertionMap.weightAt
    cases s.store.teamMembers.get teamId with
    | none => rfl
    | some members => exact if_pos rfl
  have hentries : s.store.durableEntries + (1 + members.size) - previous ≤ s.capacity.maximum :=
    (Records.total_set _ _ .teamMembers teamId members).symm.trans_le hholds.entries
  have hteams : teamId ≠ "" →
      s.store.teamEntries teamId + (1 + members.size) - previous ≤ s.capacity.maximumPerTeam := by
    intro hne
    have hteam := (Records.total_set s.store.toRecords (Entity.teamUnits teamId) .teamMembers teamId
      members).symm.trans_le (hholds.teams teamId hne)
    rw [show Entity.teamUnits teamId .teamMembers teamId members = 1 + members.size from if_pos rfl]
      at hteam
    rw [← hteamWeight]
    exact hteam
  have hdelta : (members.size - (((s.store.teamMembers.get teamId).map (·.size)).getD 0 : ℕ) +
      if s.store.teamMembers.has teamId then 0 else 1 : ℤ) = 1 + members.size - previous := by
    have hprevious : previous = _ := weightAt_units s teamId
    rw [hprevious]
    split_ifs <;> omega
  have hroom : s.capacity.used + (1 + members.size - previous) ≤ s.capacity.maximum := by
    rw [h.used]
    omega
  have hteamRoom : teamId ≠ "" → s.capacity.usedByTeam.count teamId +
      (1 + members.size - previous) ≤ s.capacity.maximumPerTeam := by
    intro hne
    have := hteams hne
    rw [h.usedByTeam teamId hne]
    omega
  obtain ⟨capacity, hadjust⟩ := DurableEntryCapacity.adjust_of_room hroom hteamRoom
  unfold setTeamMembers
  dsimp only
  rw [hdelta, hadjust]

/-- **An edit that the ceilings have room for is carried out.** -/
theorem written_edit (h : s.Accounted) (hholds : s.Holds (s.store.toRecords.edit d)) :
    s.Written (s.store.toRecords.edit d) (s.edit d) := by
  rcases edit_settles h d with hwritten | ⟨⟨error, herror⟩, -⟩
  · exact hwritten
  cases d with
  | set e k v =>
    by_cases he : e = .teamMembers
    · subst he
      have hnone : (s.edit (.set .teamMembers k v)).2 = none := setTeamMembers_of_holds h k v hholds
      rw [hnone] at herror
      cases herror
    · have hwritten := written_of_holds h he (k := k) (v := v) hholds
      have hedit : s.edit (.set e k v) = s.setTracked e k v := apply_set he k v
      rw [hedit]
      exact hwritten
  | delete e k => exact written_delete h e k
  | deleteWhere e p =>
    cases herror

/-! ### Several edits -/

/-- Edits that ended without an error have all been carried out. -/
theorem written_editAll_of_none (h : s.Accounted) (hnone : (s.editAll l).2 = none) :
    s.Written (s.store.toRecords.editAll l) (s.editAll l) := by
  induction l generalizing s with
  | nil => exact ⟨rfl, rfl, h, rfl, rfl, rfl⟩
  | cons d l ih =>
    rcases edit_settles h d with hwritten | ⟨⟨error, herror⟩, -⟩
    · have hsecond : ((s.edit d).1.editAll l).2 = none := by
        rw [editAll, Ended.andThen, hwritten.none] at hnone
        exact hnone
      have hrest := ih hwritten.accounted hsecond
      rw [hwritten.records] at hrest
      exact hwritten.andThen hrest
    · rw [editAll, Ended.andThen, herror] at hnone
      rw [hnone] at herror
      cases herror

/-- The ceilings have room for every entry that a list of edits sets. -/
def Fits (s : BoundedStore) : List StoreEdit → Records → Prop
  | [], _ => True
  | .set e k v :: l, r => s.Holds (r.edit (.set e k v)) ∧ Fits s l (r.edit (.set e k v))
  | .delete e k :: l, r => Fits s l (r.edit (.delete e k))
  | .deleteWhere e p :: l, r => Fits s l (r.edit (.deleteWhere e p))

theorem Fits.of_sameCeilings {r : Records} (h : s.Fits l r) (hs : s.SameCeilings s') :
    s'.Fits l r := by
  induction l generalizing r with
  | nil => trivial
  | cons d l ih =>
    cases d with
    | set e k v => exact ⟨h.1.of_sameCeilings hs, ih h.2⟩
    | delete e k => exact ih (r := r.edit (.delete e k)) h
    | deleteWhere e p => exact ih (r := r.edit (.deleteWhere e p)) h

theorem Fits.append {l' : List StoreEdit} {r : Records} (h : s.Fits l r)
    (h' : s.Fits l' (r.editAll l)) : s.Fits (l ++ l') r := by
  induction l generalizing r with
  | nil => exact h'
  | cons d l ih =>
    cases d with
    | set e k v => exact ⟨h.1, ih h.2 h'⟩
    | delete e k => exact ih (r := r.edit (.delete e k)) h h'
    | deleteWhere e p => exact ih (r := r.edit (.deleteWhere e p)) h h'

/-- **Edits that the ceilings have room for are all carried out.** -/
theorem written_editAll (h : s.Accounted) (hfits : s.Fits l s.store.toRecords) :
    s.Written (s.store.toRecords.editAll l) (s.editAll l) := by
  induction l generalizing s with
  | nil => exact ⟨rfl, rfl, h, rfl, rfl, rfl⟩
  | cons d l ih =>
    obtain ⟨hwritten, hrest⟩ : s.Written (s.store.toRecords.edit d) (s.edit d) ∧
        s.Fits l (s.store.toRecords.edit d) := by
      cases d with
      | set e k v => exact ⟨written_edit h hfits.1, hfits.2⟩
      | delete e k => exact ⟨written_delete h e k, hfits⟩
      | deleteWhere e p =>
        rcases edit_settles h (.deleteWhere e p) with hwritten | ⟨⟨error, herror⟩, -⟩
        · exact ⟨hwritten, hfits⟩
        · cases herror
    rw [← hwritten.records] at hrest
    have hsecond := ih hwritten.accounted (hrest.of_sameCeilings hwritten.sameCeilings)
    rw [hwritten.records] at hsecond
    exact hwritten.andThen hsecond

/-- A collection can be filled again when the ceilings have room for all of it. -/
theorem fits_restoreEntries {r : Records} {m : InsertionMap String e.Value}
    (hholds : s.Holds (r.withCollection e m)) :
    s.Fits (restoreEntries m) (r.withCollection e .empty) := by
  have hsets : ∀ (rest : List (String × e.Value)) (current : InsertionMap String e.Value),
      m.entries = current.entries ++ rest →
        s.Fits (rest.map fun p ↦ .set e p.1 p.2) (r.withCollection e current) := by
    intro rest
    induction rest with
    | nil => exact fun _ _ ↦ trivial
    | cons p rest ih =>
      intro current hm
      have hnew : current.get p.1 = none := by
        refine InsertionMap.lookupEntry_eq_none_iff.mpr fun hmem ↦ ?_
        have hnodup := m.nodup_keys
        rw [hm, List.map_append] at hnodup
        exact (List.nodup_append.mp hnodup).2.2 _ hmem p.1 List.mem_cons_self rfl
      have hm' : m.entries = (current.set p.1 p.2).entries ++ rest := by
        rw [hm, InsertionMap.entries_set_of_get_eq_none p.2 hnew, List.append_assoc,
          List.singleton_append]
      have hedit : (r.withCollection e current).edit (.set e p.1 p.2) =
          r.withCollection e (current.set p.1 p.2) := by
        show (r.withCollection e current).withCollection e
          (((r.withCollection e current).collection e).set p.1 p.2) = _
        rw [Records.collection_withCollection_self, Records.withCollection_withCollection]
      refine ⟨?_, ?_⟩
      · rw [hedit]
        exact hholds.of_tally_le fun w hw ↦ tally_le_of_entries_append hm' hw
      · rw [hedit]
        exact ih _ hm'
  exact hsets m.entries .empty rfl

/-! ### The accounts of the entries -/

/-- What an entry weighs in an account: that of the relay, or that of a team. -/
def entryWeight : Option String → (e : Entity) → String → e.Value → ℤ
  | none => fun e _ v ↦ e.units v
  | some teamId => Entity.teamUnits teamId

/-- The ceiling of an account. -/
def entryCeiling (s : BoundedStore) : Option String → ℤ
  | none => s.capacity.maximum
  | some _ => s.capacity.maximumPerTeam

/-- What an entry that is attributed to a team weighs in an account. -/
def share (account attributed : Option String) : ℤ :=
  match account with
  | none => 1
  | some teamId => DurableEntryCapacity.forTeam 1 attributed teamId

theorem share_nonneg (account attributed : Option String) : 0 ≤ share account attributed := by
  cases account with
  | none => exact zero_le_one
  | some teamId =>
    show 0 ≤ if attributed = some teamId then (1 : ℤ) else 0
    split_ifs <;> omega

theorem share_le_one (account attributed : Option String) : share account attributed ≤ 1 := by
  cases account with
  | none => exact le_rfl
  | some teamId =>
    show (if attributed = some teamId then (1 : ℤ) else 0) ≤ 1
    split_ifs <;> omega

theorem entryWeight_of_ne (he : e ≠ .teamMembers) (account : Option String) (k : String)
    (v : e.Value) : entryWeight account e k v = share account (e.teamIdForEntry k v) := by
  cases account with
  | none => exact Entity.units_of_ne he v
  | some teamId => exact Entity.teamUnits_of_ne he teamId k v

theorem entryWeight_nonneg (account : Option String) (e : Entity) (k : String) (v : e.Value) :
    0 ≤ entryWeight account e k v := by
  cases account with
  | none => exact e.units_nonneg v
  | some teamId =>
    show 0 ≤ if e.teamIdForEntry k v = some teamId then e.units v else 0
    split_ifs
    · exact e.units_nonneg v
    · exact le_rfl

theorem Holds.entries_le {r : Records} (h : s.Holds r) {account : Option String}
    (haccount : account ≠ some "") : r.total (entryWeight account) ≤ s.entryCeiling account := by
  cases account with
  | none => exact h.entries
  | some teamId => exact h.teams teamId fun heq ↦ haccount (congrArg some heq)

theorem Holds.of_entries_le {r : Records}
    (h : ∀ account, account ≠ some "" → r.total (entryWeight account) ≤ s.entryCeiling account)
    (hbytes : ∀ a, r.retainedBytes a ≤ s.byteCapacity.limits.limit a) : s.Holds r where
  entries := h none nofun
  teams teamId hne := h (some teamId) fun heq ↦ hne (Option.some.inj heq)
  bytes := hbytes

/-- Records that hold the same weigh the same. -/
theorem total_of_agrees {r r' : Records} (h : r.Agrees r')
    (w : (e : Entity) → String → e.Value → ℤ) : r.total w = r'.total w :=
  Finset.sum_congr rfl fun e _ ↦ InsertionMap.tally_congr (h e) (w e)

/-- The counters of two stores have the same values. -/
structure SameCounters (s s' : BoundedStore) : Prop where
  used : s'.capacity.used = s.capacity.used
  usedByTeam : ∀ teamId, teamId ≠ "" →
    s'.capacity.usedByTeam.count teamId = s.capacity.usedByTeam.count teamId
  bytes : ∀ a, s'.byteCapacity.balance a = s.byteCapacity.balance a

/-- Stores whose accounts are right and that hold the same have counted the same. -/
theorem Accounted.sameCounters (h : s.Accounted) (h' : s'.Accounted)
    (hagrees : s'.store.toRecords.Agrees s.store.toRecords) : s.SameCounters s' where
  used := by rw [h'.used, h.used, Records.durableEntries, Records.durableEntries,
    total_of_agrees hagrees]
  usedByTeam teamId hne := by rw [h'.usedByTeam teamId hne, h.usedByTeam teamId hne,
    Records.teamEntries, Records.teamEntries, total_of_agrees hagrees]
  bytes a := by rw [h'.bytes a, h.bytes a, Records.retainedBytes, Records.retainedBytes,
    total_of_agrees hagrees]

/-! ### How a transaction ends -/

/-- A rollback goes through or is refused. -/
theorem rollBack_cases (t : Transaction) (s : BoundedStore) :
    (s.rollBack t).2 = .rolledBack ∨ ∃ error, (s.rollBack t).2 = .rollbackFailed error := by
  unfold rollBack
  obtain ⟨s', _ | error⟩ := s.editAll t.rollback
  · exact .inl rfl
  · exact .inr ⟨error, rfl⟩

theorem rollBack_eq_rolledBack {t : Transaction} (h : s.Accounted)
    (hended : (s.rollBack t).2 = .rolledBack) :
    s.Written (s.store.toRecords.editAll t.rollback) ((s.rollBack t).1, none) := by
  unfold rollBack at hended ⊢
  have hwritten := written_editAll_of_none (l := t.rollback) h
  generalize s.editAll t.rollback = ended at hended hwritten ⊢
  obtain ⟨s', _ | error⟩ := ended
  · exact hwritten rfl
  · cases hended

theorem rollBack_of_fits {t : Transaction} (h : s.Accounted)
    (hfits : s.Fits t.rollback s.store.toRecords) : (s.rollBack t).2 = .rolledBack := by
  unfold rollBack
  have hnone := (written_editAll h hfits).none
  generalize s.editAll t.rollback = ended at hnone
  obtain ⟨s', _ | error⟩ := ended
  · rfl
  · cases hnone

end BoundedStore

end MultAIplayer
