import MultAIplayer.Lib.InsertionMap
import Mathlib.Data.List.Sort
import Mathlib.Order.Defs.LinearOrder

/-!
# Logs kept as ranked rows

A table that holds many logs at once: a row belongs to a log, has an id that is unique in its log,
and a rank that says where in the log it stands. Reading a log sorts its rows by rank, and by id
where ranks agree.

## Two ways to write, one way to read

`append` adds one row behind the others and leaves a row that is already there alone; `rewrite`
replaces a whole log. The lemmas `rows_append`, `rows_delete` and `rows_rewrite` say what each does
to the sorted rows. All three go through `rows_eq`: a sorted list with distinct ids **is** the log
as soon as it has the log's members, so no consumer argues about sorting.
-/

/-- A row of a log: where it stands and what it holds. -/
structure RankedRow (β : Type) where
  rank : ℕ
  value : β
  deriving DecidableEq

/-- Rows by log and id. -/
abbrev RankedLog (κ ι β : Type) := InsertionMap (κ × ι) (RankedRow β)

namespace RankedLog

variable {κ ι β : Type}

/-! ### Ranking a list by position -/

/-- A list of rows ranked by position. -/
@[grind =] def ranked (l : List (ι × β)) : List (ι × RankedRow β) :=
  l.zipIdx.map fun e ↦ (e.1.1, ⟨e.2, e.1.2⟩)

theorem map_fst_ranked (l : List (ι × β)) : (ranked l).map Prod.fst = l.map Prod.fst := by
  rw [ranked, List.map_map]
  exact (List.map_map (f := Prod.fst) (g := Prod.fst) (l := l.zipIdx)).symm.trans
    (by rw [List.zipIdx_map_fst])

theorem map_value_ranked (l : List (ι × β)) :
    ((ranked l).map fun r ↦ r.2.value) = l.map Prod.snd := by
  rw [ranked, List.map_map]
  exact (List.map_map (f := Prod.fst) (g := Prod.snd) (l := l.zipIdx)).symm.trans
    (by rw [List.zipIdx_map_fst])

variable [DecidableEq κ] [LinearOrder ι]

/-! ### The order of rows -/

/-- The order in which a log is read: by rank, then by id. -/
def Before (a b : ι × RankedRow β) : Prop :=
  a.2.rank < b.2.rank ∨ a.2.rank = b.2.rank ∧ a.1 ≤ b.1

instance (a b : ι × RankedRow β) : Decidable (Before a b) :=
  inferInstanceAs (Decidable (_ ∨ _))

instance : Std.Total (Before (ι := ι) (β := β)) where
  total a b := by
    rcases lt_trichotomy a.2.rank b.2.rank with h | h | h
    · exact .inl (.inl h)
    · exact (le_total a.1 b.1).imp (fun hid ↦ .inr ⟨h, hid⟩) (fun hid ↦ .inr ⟨h.symm, hid⟩)
    · exact .inr (.inl h)

instance : IsTrans (ι × RankedRow β) Before where
  trans a b c hab hbc := by
    rcases hab with hab | ⟨hab, hid⟩
    · rcases hbc with hbc | ⟨hbc, -⟩
      · exact .inl (hab.trans hbc)
      · exact .inl (hab.trans_eq hbc)
    · rcases hbc with hbc | ⟨hbc, hid'⟩
      · exact .inl (hab.trans_lt hbc)
      · exact .inr ⟨hab.trans hbc, hid.trans hid'⟩

/-! ### Reading -/

/-- The rows of a log with their ids, in order. -/
@[grind =] def rows (t : RankedLog κ ι β) (k : κ) : List (ι × RankedRow β) :=
  ((t.entries.filter fun e ↦ e.1.1 = k).map fun e ↦ (e.1.2, e.2)).insertionSort Before

/-- What the rows of a log hold, in order. -/
@[grind =] def listing (t : RankedLog κ ι β) (k : κ) : List β := (rows t k).map fun r ↦ r.2.value

/-- The rank behind every row of a log. -/
def nextRank (t : RankedLog κ ι β) (k : κ) : ℕ :=
  (rows t k).foldr (fun r n ↦ max (r.2.rank + 1) n) 0

theorem mem_rows_iff {t : RankedLog κ ι β} {k : κ} {i : ι} {r : RankedRow β} :
    (i, r) ∈ rows t k ↔ t.get (k, i) = some r := by
  rw [rows, List.mem_insertionSort, ← InsertionMap.mem_entries_iff]
  simp only [List.mem_map, List.mem_filter, decide_eq_true_eq, Prod.mk.injEq]
  constructor
  · rintro ⟨⟨⟨k', i'⟩, r'⟩, ⟨hmem, rfl⟩, rfl, rfl⟩
    exact hmem
  · intro hmem
    exact ⟨((k, i), r), ⟨hmem, rfl⟩, rfl, rfl⟩

theorem pairwise_rows (t : RankedLog κ ι β) (k : κ) : (rows t k).Pairwise Before :=
  List.pairwise_insertionSort Before _

theorem nodup_ids_rows (t : RankedLog κ ι β) (k : κ) : ((rows t k).map Prod.fst).Nodup := by
  have hperm := (List.perm_insertionSort Before
    ((t.entries.filter fun e ↦ e.1.1 = k).map fun e ↦ (e.1.2, e.2))).map Prod.fst
  rw [rows, hperm.nodup_iff, List.map_map]
  have hkeys : ((t.entries.filter fun e ↦ e.1.1 = k).map Prod.fst).Nodup :=
    t.nodup_keys.sublist (List.filter_sublist.map Prod.fst)
  have hids := hkeys.map_on (f := Prod.snd) fun a ha b hb hab ↦ by
    obtain ⟨x, hx, rfl⟩ := List.mem_map.mp ha
    obtain ⟨y, hy, rfl⟩ := List.mem_map.mp hb
    have hxk : x.1.1 = k := by simpa using (List.mem_filter.mp hx).2
    have hyk : y.1.1 = k := by simpa using (List.mem_filter.mp hy).2
    exact Prod.ext (hxk.trans hyk.symm) hab
  simpa [List.map_map, Function.comp_def] using hids

/-- **A sorted list with the members of a log is the log.** -/
theorem rows_eq {t : RankedLog κ ι β} {k : κ} {l : List (ι × RankedRow β)}
    (hsorted : l.Pairwise Before) (hids : (l.map Prod.fst).Nodup)
    (hmem : ∀ i r, (i, r) ∈ l ↔ t.get (k, i) = some r) : rows t k = l := by
  have hperm : (rows t k).Perm l := by
    refine (List.perm_ext_iff_of_nodup (nodup_ids_rows t k).of_map hids.of_map).mpr ?_
    rintro ⟨i, r⟩
    rw [mem_rows_iff, hmem]
  refine hperm.eq_of_pairwise ?_ (pairwise_rows t k) hsorted
  rintro ⟨i, r⟩ ⟨j, s⟩ hi hj hij hji
  have hij : i = j := by
    rcases hij with hij | ⟨hrank, hij⟩
    · rcases hji with hji | ⟨hji, -⟩
      · exact absurd hij (lt_asymm hji)
      · exact absurd hji (ne_of_gt hij)
    · rcases hji with hji | ⟨-, hji⟩
      · exact absurd hrank (ne_of_gt hji)
      · exact le_antisymm hij hji
  subst hij
  rw [mem_rows_iff] at hi
  rw [hmem, hi, Option.some.injEq] at hj
  rw [hj]

/-- A log depends on its own rows only. -/
theorem rows_congr {t u : RankedLog κ ι β} {k : κ} (h : ∀ i, u.get (k, i) = t.get (k, i)) :
    rows u k = rows t k :=
  rows_eq (pairwise_rows t k) (nodup_ids_rows t k) fun i r ↦ by rw [mem_rows_iff, h]

theorem rank_lt_nextRank {t : RankedLog κ ι β} {k : κ} {r : ι × RankedRow β}
    (h : r ∈ rows t k) : r.2.rank < nextRank t k := by
  have hmax : ∀ l : List (ι × RankedRow β), r ∈ l →
      r.2.rank < l.foldr (fun r n ↦ max (r.2.rank + 1) n) 0 := by
    intro l hl
    induction l with
    | nil => cases hl
    | cons a l ih =>
      rw [List.foldr_cons]
      rcases List.mem_cons.mp hl with rfl | hl
      · omega
      · have hlt := ih hl
        omega
  exact hmax _ h

/-! ### Writing -/

/-- Add a row behind all others; a row with that id that is already there stays as it is. -/
@[grind =] def append (t : RankedLog κ ι β) (k : κ) (i : ι) (v : β) : RankedLog κ ι β :=
  if t.has (k, i) then t else t.set (k, i) ⟨nextRank t k, v⟩

/-- Remove the rows of a log with the listed ids. -/
def deleteIds (t : RankedLog κ ι β) (k : κ) (ids : List ι) : RankedLog κ ι β :=
  t.deleteAll (ids.map (k, ·))

/-- Replace a log: rows that are not listed go, the others are ranked by position. -/
@[grind =] def rewrite (t : RankedLog κ ι β) (k : κ) (l : List (ι × β)) : RankedLog κ ι β :=
  (t.filter fun e _ ↦ e.1 ≠ k || e.2 ∈ l.map Prod.fst).setAll
    ((ranked l).map fun e ↦ ((k, e.1), e.2))

theorem get_append_of_ne {t : RankedLog κ ι β} {k k' : κ} (i i' : ι) (v : β) (h : k' ≠ k) :
    (append t k i v).get (k', i') = t.get (k', i') := by
  unfold append
  split_ifs
  · rfl
  · exact InsertionMap.get_set_of_ne _ _ fun he ↦ h (congrArg Prod.fst he)

theorem rows_append_of_ne {t : RankedLog κ ι β} {k k' : κ} (i : ι) (v : β) (h : k' ≠ k) :
    rows (append t k i v) k' = rows t k' :=
  rows_congr fun i' ↦ get_append_of_ne i i' v h

/-- **An appended row is read last.** -/
theorem rows_append {t : RankedLog κ ι β} {k : κ} {i : ι} (v : β) (h : t.get (k, i) = none) :
    rows (append t k i v) k = rows t k ++ [(i, ⟨nextRank t k, v⟩)] := by
  have hhas : t.has (k, i) = false := by rw [InsertionMap.has, h]; rfl
  have hget : ∀ j, (append t k i v).get (k, j) =
      if j = i then some ⟨nextRank t k, v⟩ else t.get (k, j) := by
    intro j
    simp only [append, hhas, Bool.false_eq_true, if_false, InsertionMap.get_set, Prod.mk.injEq,
      true_and]
  have hnew : i ∉ (rows t k).map Prod.fst := by
    intro hi
    obtain ⟨⟨j, r⟩, hmem, rfl⟩ := List.mem_map.mp hi
    rw [mem_rows_iff.mp hmem] at h
    cases h
  refine rows_eq ?_ ?_ ?_
  · refine List.pairwise_append.mpr ⟨pairwise_rows t k, List.pairwise_singleton _ _, ?_⟩
    rintro a ha b hb
    rw [List.mem_singleton.mp hb]
    exact .inl (rank_lt_nextRank ha)
  · rw [List.map_append]
    refine List.nodup_append.mpr ⟨nodup_ids_rows t k, List.nodup_singleton _, ?_⟩
    rintro a ha b hb rfl
    rw [List.mem_singleton.mp hb] at ha
    exact hnew ha
  · intro j r
    rw [List.mem_append, mem_rows_iff, List.mem_singleton, hget, Prod.mk.injEq]
    by_cases hj : j = i
    · subst hj
      simp [h, eq_comm]
    · simp [hj]

theorem rows_append_of_has {t : RankedLog κ ι β} {k : κ} {i : ι} (v : β)
    (h : t.has (k, i) = true) : append t k i v = t := by
  rw [append, if_pos h]

theorem get_deleteIds (t : RankedLog κ ι β) (k k' : κ) (ids : List ι) (i : ι) :
    (deleteIds t k ids).get (k', i) = if k' = k ∧ i ∈ ids then none else t.get (k', i) := by
  rw [deleteIds, InsertionMap.get_deleteAll]
  congr 1
  simp [and_comm, eq_comm]

theorem rows_deleteIds_of_ne {t : RankedLog κ ι β} {k k' : κ} (ids : List ι) (h : k' ≠ k) :
    rows (deleteIds t k ids) k' = rows t k' :=
  rows_congr fun i ↦ by rw [get_deleteIds, if_neg fun hk ↦ h hk.1]

/-- **Deleting rows keeps the order of the others.** -/
theorem rows_deleteIds (t : RankedLog κ ι β) (k : κ) (ids : List ι) :
    rows (deleteIds t k ids) k = (rows t k).filter fun r ↦ r.1 ∉ ids := by
  refine rows_eq ((pairwise_rows t k).sublist List.filter_sublist)
    ((nodup_ids_rows t k).sublist (List.filter_sublist.map Prod.fst)) ?_
  intro i r
  rw [List.mem_filter, mem_rows_iff, get_deleteIds]
  by_cases hi : i ∈ ids <;> simp [hi]

theorem pairwise_ranked (l : List (ι × β)) : (ranked l).Pairwise Before := by
  have hlt : ∀ n, (l.zipIdx n).Pairwise fun a b ↦ a.2 < b.2 := by
    induction l with
    | nil => exact fun n ↦ List.Pairwise.nil
    | cons a l ih =>
      intro n
      rw [List.zipIdx_cons]
      exact List.pairwise_cons.mpr
        ⟨fun b hb ↦ Nat.lt_of_succ_le (List.le_snd_of_mem_zipIdx hb), ih (n + 1)⟩
  exact List.pairwise_map.mpr ((hlt 0).imp fun hab ↦ .inl hab)

theorem rows_rewrite_of_ne {t : RankedLog κ ι β} {k k' : κ} (l : List (ι × β)) (h : k' ≠ k) :
    rows (rewrite t k l) k' = rows t k' := by
  refine rows_congr fun i ↦ ?_
  rw [rewrite, InsertionMap.get_setAll_of_not_mem, InsertionMap.get_filter]
  · cases t.get (k', i) <;> simp [h]
  · simp [h.symm]

/-- **A rewritten log is the list it was given**, ranked by position. -/
theorem rows_rewrite {t : RankedLog κ ι β} {k : κ} {l : List (ι × β)}
    (hl : (l.map Prod.fst).Nodup) : rows (rewrite t k l) k = ranked l := by
  refine rows_eq (pairwise_ranked l) (by rwa [map_fst_ranked]) ?_
  intro i r
  have hkeys : (((ranked l).map fun e ↦ ((k, e.1), e.2)).map Prod.fst).Nodup := by
    have hinj : Function.Injective fun i : ι ↦ (k, i) := fun a b hab ↦ (Prod.mk.inj hab).2
    have hnodup := (map_fst_ranked l ▸ hl).map hinj
    simpa [List.map_map, Function.comp_def] using hnodup
  rw [rewrite, InsertionMap.get_setAll _ hkeys]
  by_cases hi : i ∈ l.map Prod.fst
  · obtain ⟨⟨j, s⟩, hmem, rfl⟩ := List.mem_map.mp (map_fst_ranked l ▸ hi)
    have hfound : InsertionMap.lookupEntry (k, j) ((ranked l).map fun e ↦ ((k, e.1), e.2)) =
        some s :=
      (InsertionMap.lookupEntry_eq_some_iff hkeys).mpr (List.mem_map.mpr ⟨(j, s), hmem, rfl⟩)
    rw [hfound, Option.some_or, Option.some.injEq]
    constructor
    · intro hr
      have hnodup : (((ranked l).map fun e ↦ ((k, e.1), e.2)).map Prod.fst).Nodup := hkeys
      have hr' := (InsertionMap.lookupEntry_eq_some_iff hnodup).mpr
        (List.mem_map.mpr ⟨(j, r), hr, rfl⟩)
      rw [hfound] at hr'
      exact Option.some.inj hr'
    · rintro rfl
      exact hmem
  · have habsent : InsertionMap.lookupEntry (k, i) ((ranked l).map fun e ↦ ((k, e.1), e.2)) =
        none := by
      rw [InsertionMap.lookupEntry_eq_none_iff]
      simp only [List.map_map, List.mem_map, Function.comp_apply, Prod.mk.injEq, true_and,
        not_exists, not_and]
      intro e he hei
      exact hi (map_fst_ranked l ▸ List.mem_map.mpr ⟨e, he, hei⟩)
    rw [habsent, Option.none_or, InsertionMap.get_filter]
    constructor
    · intro hr
      exact absurd (map_fst_ranked l ▸ List.mem_map.mpr ⟨(i, r), hr, rfl⟩) hi
    · cases t.get (k, i) <;> simp [hi]

theorem listing_rewrite {t : RankedLog κ ι β} {k : κ} {l : List (ι × β)}
    (hl : (l.map Prod.fst).Nodup) : listing (rewrite t k l) k = l.map Prod.snd := by
  rw [listing, rows_rewrite hl, map_value_ranked]

/-! ### Rows named by what they hold -/

section Named

variable (name : β → ι)

/-- Every row's id is the name of what the row holds. -/
def Named (t : RankedLog κ ι β) : Prop :=
  ∀ k i r, t.get (k, i) = some r → name r.value = i

variable {name} {t : RankedLog κ ι β}

theorem named_empty : Named name (.empty : RankedLog κ ι β) := nofun

theorem Named.append (h : Named name t) (k : κ) (v : β) : Named name (append t k (name v) v) := by
  intro k' i r hr
  unfold RankedLog.append at hr
  split_ifs at hr
  · exact h k' i r hr
  · rw [InsertionMap.get_set] at hr
    split_ifs at hr with hk
    · rw [← Option.some.inj hr, (Prod.mk.inj hk).2]
    · exact h k' i r hr

theorem Named.deleteIds (h : Named name t) (k : κ) (ids : List ι) :
    Named name (deleteIds t k ids) := by
  intro k' i r hr
  rw [get_deleteIds] at hr
  split_ifs at hr
  exact h k' i r hr

theorem Named.rewrite (h : Named name t) (k : κ) (l : List β) :
    Named name (rewrite t k (l.map fun v ↦ (name v, v))) := by
  intro k' i r hr
  rw [RankedLog.rewrite, InsertionMap.get_setAll_reverse] at hr
  cases hlookup : InsertionMap.lookupEntry (k', i)
      ((ranked (l.map fun v ↦ (name v, v))).map fun e ↦ ((k, e.1), e.2)).reverse with
  | none =>
    rw [hlookup, Option.none_or, InsertionMap.get_filter] at hr
    exact h k' i r (Option.filter_eq_some_iff.mp hr).1
  | some s =>
    rw [hlookup, Option.some_or, Option.some.injEq] at hr
    subst hr
    have hmem := List.mem_reverse.mp (InsertionMap.mem_of_lookupEntry hlookup)
    obtain ⟨⟨j, s'⟩, hranked, heq⟩ := List.mem_map.mp hmem
    obtain ⟨hkey, rfl⟩ := Prod.mk.inj heq
    obtain ⟨-, rfl⟩ := Prod.mk.inj hkey
    -- A ranked row is a position of the list with the pair that stands there.
    obtain ⟨⟨⟨n, v⟩, rank⟩, hpos, heq⟩ := List.mem_map.mp hranked
    obtain ⟨rfl, rfl⟩ := Prod.mk.inj heq
    obtain ⟨w, -, hpair⟩ := List.mem_map.mp (List.fst_mem_of_mem_zipIdx hpos)
    obtain ⟨rfl, rfl⟩ := Prod.mk.inj hpair
    rfl

theorem map_name_listing (h : Named name t) (k : κ) :
    (listing t k).map name = (rows t k).map Prod.fst := by
  rw [listing, List.map_map]
  refine List.map_congr_left fun r hr ↦ ?_
  exact h k r.1 r.2 (mem_rows_iff.mp hr)

/-- **An appended value is listed last** when its name is new. -/
theorem listing_append (h : Named name t) {k : κ} {v : β} (hv : name v ∉ (listing t k).map name) :
    listing (append t k (name v) v) k = listing t k ++ [v] := by
  have hnone : t.get (k, name v) = none := by
    cases hget : t.get (k, name v) with
    | none => rfl
    | some r =>
      rw [map_name_listing h] at hv
      exact absurd (List.mem_map.mpr ⟨(name v, r), mem_rows_iff.mpr hget, rfl⟩) hv
  rw [listing, rows_append v hnone, List.map_append]
  rfl

/-- **Deleting names removes the values with these names.** -/
theorem listing_deleteIds (h : Named name t) (k : κ) (ids : List ι) :
    listing (deleteIds t k ids) k = (listing t k).filter fun v ↦ name v ∉ ids := by
  rw [listing, rows_deleteIds, listing, List.filter_map]
  congr 1
  refine List.filter_congr fun r hr ↦ ?_
  rw [Function.comp_apply, h k r.1 r.2 (mem_rows_iff.mp hr)]

end Named

end RankedLog
