import MultAIplayer.Relay.Accounting

/-!
# Writes that cannot be refused

A write into the bounded store throws when a ceiling stands in its way. Code that puts back what it
found relies on its own writes going through. A write goes through when what the store would then
hold is within the ceilings (`written_of_holds`): how the store came to where it is does not matter,
because the accounts are right.

A collection that was cleared is filled again entry by entry, in its old order
(`written_setAllTracked`).
-/

namespace MultAIplayer

theorem Entity.units_nonneg (e : Entity) (v : e.Value) : 0 ≤ e.units v := by
  by_cases he : e = .teamMembers
  · subst he
    show (0 : ℤ) ≤ 1 + (InsertionMap.size v : ℕ)
    omega
  · rw [Entity.units_of_ne he]
    exact zero_le_one

namespace BoundedStore

/-- How one or several writes ended: the store, and the error that was thrown, if any. -/
abbrev Ended := BoundedStore × Option CapacityError

/-- What comes next, unless something was thrown. -/
def Ended.andThen (ended : Ended) (next : BoundedStore → Ended) : Ended :=
  match ended.2 with
  | none => next ended.1
  | some _ => ended

/-- Set every entry, from left to right. -/
def setAllTracked (e : Entity) : List (String × e.Value) → BoundedStore → Ended
  | [], s => (s, none)
  | p :: l, s => Ended.andThen (s.setTracked e p.1 p.2) (setAllTracked e l)

/-- The records are within the ceilings of the store. -/
structure Holds (s : BoundedStore) (r : Records) : Prop where
  entries : r.durableEntries ≤ s.capacity.maximum
  teams : ∀ teamId, teamId ≠ "" → r.teamEntries teamId ≤ s.capacity.maximumPerTeam
  bytes : ∀ a, r.retainedBytes a ≤ s.byteCapacity.limits.limit a

/-- Writes that ended without an error: the records that the store holds then, under the same
ceilings and with the accounts right. -/
structure Written (s : BoundedStore) (r : Records) (ended : Ended) : Prop where
  none : ended.2 = none
  records : ended.1.store.toRecords = r
  accounted : ended.1.Accounted
  sameCeilings : s.SameCeilings ended.1

variable {s s' : BoundedStore} {r : Records} {e : Entity} {k : String} {v : e.Value}

theorem Accounted.holds (h : s.Accounted) : s.Holds s.store.toRecords where
  entries := h.used ▸ h.within.1
  teams teamId hne := h.usedByTeam teamId hne ▸ h.within.2 teamId hne
  bytes a := h.bytes a ▸ h.bytesWithin a

theorem Holds.of_sameCeilings (h : s.Holds r) (hs : s.SameCeilings s') : s'.Holds r where
  entries := hs.1 ▸ h.entries
  teams teamId hne := hs.2.1 ▸ h.teams teamId hne
  bytes a := hs.2.2 ▸ h.bytes a

theorem SameCeilings.symm (h : s.SameCeilings s') : s'.SameCeilings s :=
  ⟨h.1.symm, h.2.1.symm, h.2.2.symm⟩

/-- A store whose accounts are right counts what it holds, so equal records are counted equally. -/
theorem Accounted.counters (h : s.Accounted) (h' : s'.Accounted)
    (heq : s'.store.toRecords = s.store.toRecords) :
    s'.capacity.used = s.capacity.used ∧
      (∀ teamId, teamId ≠ "" →
        s'.capacity.usedByTeam.count teamId = s.capacity.usedByTeam.count teamId) ∧
      ∀ a, s'.byteCapacity.balance a = s.byteCapacity.balance a := by
  refine ⟨?_, fun teamId hne ↦ ?_, fun a ↦ ?_⟩
  · rw [h'.used, h.used, heq]
  · rw [h'.usedByTeam teamId hne, h.usedByTeam teamId hne, heq]
  · rw [h'.bytes a, h.bytes a, heq]

theorem Written.andThen {r' : Records} {ended : Ended} {next : BoundedStore → Ended}
    (h : s.Written r ended) (hnext : ended.1.Written r' (next ended.1)) :
    s.Written r' (ended.andThen next) := by
  rw [Ended.andThen, h.none]
  exact ⟨hnext.none, hnext.records, hnext.accounted, h.sameCeilings.trans hnext.sameCeilings⟩

/-! ### One write -/

theorem toRecords_set (s : RelayStore) (e : Entity) (k : String) (v : e.Value) :
    (s.set e k v).toRecords = s.toRecords.withCollection e ((s.collection e).set k v) := rfl

/-- An entry that the ceilings have room for is claimed. -/
theorem claimEntry_of_holds (h : s.Accounted) (he : e ≠ .teamMembers)
    (hholds : s.Holds (s.store.set e k v).toRecords) :
    ∃ capacity, s.claimEntry e k v ((s.store.collection e).get k) = .ok capacity := by
  have hentries := hholds.entries
  have hteams := hholds.teams
  rw [toRecords_set, Records.durableEntries, Records.total_set, Entity.units_of_ne he] at hentries
  simp only [toRecords_set, Records.teamEntries, Records.total_set] at hteams
  unfold InsertionMap.weightAt at hentries hteams
  have hused : s.capacity.used = s.store.total fun e _ v ↦ e.units v := h.used
  have hcount : ∀ teamId, teamId ≠ "" → s.capacity.usedByTeam.count teamId =
    s.store.total (Entity.teamUnits teamId) := h.usedByTeam
  cases hget : (s.store.collection e).get k with
  | none =>
    rw [hget] at hentries hteams
    unfold claimEntry DurableEntryCapacity.claim DurableEntryCapacity.adjust
    dsimp only
    have hroom : ¬(0 < (1 : ℤ) ∧ (s.capacity.maximum : ℤ) < s.capacity.used + 1) := by
      rw [hused]
      simp only [Option.elim] at hentries
      omega
    rw [if_neg hroom]
    cases hteam : truthy (e.teamIdForEntry k v) with
    | none => exact ⟨_, rfl⟩
    | some team =>
      obtain ⟨heq, hne⟩ := DurableEntryCapacity.truthy_eq_some hteam
      have hlimit := hteams team hne
      rw [Entity.teamUnits_of_ne he, DurableEntryCapacity.forTeam, if_pos heq] at hlimit
      have hteamRoom : ¬(0 < (1 : ℤ) ∧
          (s.capacity.maximumPerTeam : ℤ) < s.capacity.usedByTeam.count team + 1) := by
        rw [hcount team hne]
        simp only [Option.elim] at hlimit
        omega
      dsimp only
      rw [if_neg hteamRoom]
      exact ⟨_, rfl⟩
  | some previous =>
    rw [hget] at hteams
    unfold claimEntry DurableEntryCapacity.move
    dsimp only
    by_cases hsame : e.teamIdForEntry k previous = e.teamIdForEntry k v
    · exact ⟨_, if_pos hsame⟩
    · rw [if_neg hsame]
      cases hteam : truthy (e.teamIdForEntry k v) with
      | none => exact ⟨_, rfl⟩
      | some team =>
        obtain ⟨heq, hne⟩ := DurableEntryCapacity.truthy_eq_some hteam
        have hlimit := hteams team hne
        have hother : e.teamIdForEntry k previous ≠ some team := fun hp ↦ hsame (hp.trans heq.symm)
        simp only [Entity.teamUnits_of_ne he, DurableEntryCapacity.forTeam, if_pos heq,
          Option.elim, if_neg hother, sub_zero] at hlimit
        rw [← hcount team hne] at hlimit
        rw [Option.filter_some_neg (by simpa using hlimit)]
        exact ⟨_, rfl⟩

/-- **A write that the ceilings have room for goes through.** -/
theorem written_of_holds (h : s.Accounted) (he : e ≠ .teamMembers)
    (hholds : s.Holds (s.store.set e k v).toRecords) :
    s.Written (s.store.set e k v).toRecords (s.setTracked e k v) := by
  have hbytes : (s.byteCapacity.replace (((s.store.collection e).get k).bind (e.byteWeight k))
      (e.byteWeight k v)).2 = none := by
    refine DurableByteCapacity.replace_of_fits fun a ↦ ?_
    have ha := hholds.bytes a
    rw [toRecords_set, Records.retainedBytes, Records.total_set] at ha
    rw [charge_previous, h.bytes a]
    exact ha
  obtain ⟨capacity, hclaimed⟩ := claimEntry_of_holds h he hholds
  have hnone : (s.setTracked e k v).2 = none := by
    unfold setTracked
    dsimp only
    rw [hclaimed]
    cases hreplaced : s.byteCapacity.replace
        (((s.store.collection e).get k).bind (e.byteWeight k)) (e.byteWeight k v) with
    | mk bytes refused =>
      rw [hreplaced] at hbytes
      obtain rfl : refused = none := hbytes
      rfl
  rcases setTracked_settles h he k v with ⟨-, hstore, haccounted, hceilings⟩ | ⟨⟨error, herror⟩, -⟩
  · exact ⟨hnone, by rw [hstore], haccounted, hceilings⟩
  · rw [hnone] at herror
    cases herror

/-- An entry that stays with its team needs room for its bytes only. -/
theorem written_in_place (h : s.Accounted) (he : e ≠ .teamMembers) {previous : e.Value}
    (hget : (s.store.collection e).get k = some previous)
    (hteam : e.teamIdForEntry k previous = e.teamIdForEntry k v)
    (hbytes : ∀ a, (s.store.set e k v).retainedBytes a ≤ s.byteCapacity.limits.limit a) :
    s.Written (s.store.set e k v).toRecords (s.setTracked e k v) := by
  have htotal : ∀ w : (e : Entity) → String → e.Value → ℤ, w e k v = w e k previous →
      (s.store.set e k v).total w = s.store.total w := by
    intro w hw
    rw [toRecords_set, Records.total_set, InsertionMap.weightAt, hget, Option.elim, hw]
    omega
  refine written_of_holds h he ⟨?_, fun teamId hne ↦ ?_, hbytes⟩
  · rw [Records.durableEntries, htotal _ (by rw [Entity.units_of_ne he, Entity.units_of_ne he])]
    exact h.holds.entries
  · rw [Records.teamEntries, htotal _ (by
      rw [Entity.teamUnits_of_ne he, Entity.teamUnits_of_ne he, hteam])]
    exact h.holds.teams teamId hne

theorem written_deleteTracked (h : s.Accounted) (he : e ≠ .teamMembers) (k : String) :
    s.Written (s.store.toRecords.withCollection e ((s.store.collection e).delete k))
      (s.deleteTracked e k, none) := by
  obtain ⟨haccounted, hceilings⟩ := deleteTracked_accounted h he k
  refine ⟨rfl, ?_, haccounted, hceilings⟩
  unfold deleteTracked
  cases hget : (s.store.collection e).get k with
  | none => rw [InsertionMap.delete_eq_self hget, Records.withCollection_collection]
  | some v => rfl

theorem written_clearTracked (h : s.Accounted) (he : e ≠ .teamMembers) :
    s.Written (s.store.toRecords.withCollection e .empty) (s.clearTracked e, none) := by
  obtain ⟨haccounted, hceilings⟩ := clearTracked_accounted h he
  exact ⟨rfl, rfl, haccounted, hceilings⟩

/-- Only backlogs and attachments retain bytes that are bounded. -/
theorem retainedBytes_congr {r r' : Records} (hbacklog : r.mlsBacklog = r'.mlsBacklog)
    (hblobs : r.attachmentBlobs = r'.attachmentBlobs) (a : ByteAccount) :
    r.retainedBytes a = r'.retainedBytes a := by
  have hzero : ∀ e : Entity, (∀ k v, e.byteWeight k v = Option.none) →
      ∀ m : InsertionMap String e.Value, m.tally (a.chargeOf e) = 0 := by
    intro e he m
    have hcharge : a.chargeOf e = fun _ _ ↦ 0 := by
      funext k v
      rw [ByteAccount.chargeOf, he, ByteAccount.charge_none]
    rw [hcharge, InsertionMap.tally]
    simp
  unfold Records.retainedBytes Records.total
  refine Finset.sum_congr rfl fun e _ ↦ ?_
  cases e with
  | mlsBacklog => exact congrArg (InsertionMap.tally · _) hbacklog
  | attachmentBlobs => exact congrArg (InsertionMap.tally · _) hblobs
  | _ => rw [hzero _ (fun _ _ ↦ rfl), hzero _ (fun _ _ ↦ rfl)]

/-! ### Filling a collection again -/

/-- Fewer entries are within the ceilings that more are within. -/
theorem Holds.of_tally_le {m m' : InsertionMap String e.Value}
    (h : s.Holds (r.withCollection e m))
    (hle : ∀ w : String → e.Value → ℤ, (∀ k v, 0 ≤ w k v) → m'.tally w ≤ m.tally w) :
    s.Holds (r.withCollection e m') := by
  have htotal : ∀ w : (e : Entity) → String → e.Value → ℤ, (∀ k v, 0 ≤ w e k v) →
      (r.withCollection e m').total w ≤ (r.withCollection e m).total w := by
    intro w hw
    rw [Records.total_withCollection, Records.total_withCollection]
    have := hle (w e) hw
    omega
  refine ⟨(htotal _ fun _ ↦ e.units_nonneg).trans h.entries, fun teamId hne ↦
    (htotal _ fun k v ↦ ?_).trans (h.teams teamId hne), fun a ↦
    (htotal _ fun k v ↦ ?_).trans (h.bytes a)⟩
  · rw [Entity.teamUnits]
    split_ifs
    · exact e.units_nonneg v
    · exact le_rfl
  · exact a.charge_nonneg _

theorem tally_le_of_entries_append {m m' : InsertionMap String e.Value}
    {rest : List (String × e.Value)} (hm : m.entries = m'.entries ++ rest)
    {w : String → e.Value → ℤ} (hw : ∀ k v, 0 ≤ w k v) : m'.tally w ≤ m.tally w := by
  have hrest : 0 ≤ (rest.map fun p ↦ w p.1 p.2).sum := by
    refine List.sum_nonneg fun n hn ↦ ?_
    obtain ⟨p, -, rfl⟩ := List.mem_map.mp hn
    exact hw p.1 p.2
  rw [InsertionMap.tally, InsertionMap.tally, hm, List.map_append, List.sum_append]
  omega

/-- **A collection is filled again entry by entry**, when the ceilings have room for all of it. -/
theorem written_setAllTracked (he : e ≠ .teamMembers) {m : InsertionMap String e.Value}
    (rest : List (String × e.Value)) (h : s.Accounted)
    (hm : m.entries = (s.store.collection e).entries ++ rest)
    (hholds : s.Holds (s.store.toRecords.withCollection e m)) :
    s.Written (s.store.toRecords.withCollection e m) (setAllTracked e rest s) := by
  induction rest generalizing s with
  | nil =>
    have hsame : m = s.store.collection e := InsertionMap.ext (by rw [hm, List.append_nil])
    rw [hsame, Records.withCollection_collection]
    exact ⟨rfl, rfl, h, rfl, rfl, rfl⟩
  | cons p rest ih =>
    have hnew : (s.store.collection e).get p.1 = none := by
      refine InsertionMap.lookupEntry_eq_none_iff.mpr fun hmem ↦ ?_
      have hnodup := m.nodup_keys
      rw [hm, List.map_append] at hnodup
      exact (List.nodup_append.mp hnodup).2.2 _ hmem p.1 (List.mem_cons_self) rfl
    have hentries : ((s.store.collection e).set p.1 p.2).entries =
        (s.store.collection e).entries ++ [p] :=
      InsertionMap.entries_set_of_get_eq_none p.2 hnew
    have hm' : m.entries = ((s.store.collection e).set p.1 p.2).entries ++ rest := by
      rw [hm, hentries, List.append_assoc, List.singleton_append]
    have hwritten := written_of_holds h he (k := p.1) (v := p.2)
      (hholds.of_tally_le fun w hw ↦ tally_le_of_entries_append hm' hw)
    refine hwritten.andThen ?_
    have hcollection : (s.setTracked e p.1 p.2).1.store.collection e =
        (s.store.collection e).set p.1 p.2 := by
      rw [hwritten.records, toRecords_set, Records.collection_withCollection_self]
    have hrecords : (s.setTracked e p.1 p.2).1.store.toRecords.withCollection e m =
        s.store.toRecords.withCollection e m := by
      rw [hwritten.records, toRecords_set, Records.withCollection_withCollection]
    rw [← hrecords] at hholds ⊢
    exact ih hwritten.accounted (by rw [hcollection, hm'])
      (hholds.of_sameCeilings hwritten.sameCeilings)

end BoundedStore

end MultAIplayer
