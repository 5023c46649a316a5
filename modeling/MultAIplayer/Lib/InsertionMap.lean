import Mathlib.Data.List.Basic
import Mathlib.Data.List.Nodup

/-!
# Insertion-ordered maps

Finite maps that remember the order in which their keys first arrived: overwriting a key keeps its
place, deleting and setting it again moves it to the end. This is the iteration order of
`Map` in ECMAScript, and the reason `AList` is not enough here: its `insert` moves the key to the
front.

## Well-formedness is a field

The keys of an `InsertionMap` are distinct by construction, so a value is found by lookup exactly
when it is listed (`mem_entries_iff`), and no consumer re-proves distinctness.

## What consumers use

Lookup after each operation is one rewriting lemma per operation (`get_set`, `get_delete`,
`get_filter`, `get_mapValues`), stated with an `if`; everything about `values` and `size` goes
through `mem_entries_iff`.
-/

/-- A finite map listed in insertion order, with distinct keys. -/
structure InsertionMap (α : Type) (β : Type) where
  /-- Keys with their values, oldest key first. -/
  entries : List (α × β)
  /-- No key is listed twice. -/
  nodup_keys : (entries.map Prod.fst).Nodup

namespace InsertionMap

variable {α β γ : Type}

@[ext] theorem ext {m n : InsertionMap α β} (h : m.entries = n.entries) : m = n := by
  cases m
  cases n
  simpa using h

/-! ### Lists of entries -/

section Entries

variable [DecidableEq α]

/-- The value listed first under a key. -/
@[grind =] def lookupEntry (k : α) : List (α × β) → Option β
  | [] => none
  | e :: l => if e.1 = k then some e.2 else lookupEntry k l

/-- Overwrite a listed key in place, or list it last. -/
@[grind =] def setEntry (k : α) (v : β) : List (α × β) → List (α × β)
  | [] => [(k, v)]
  | e :: l => if e.1 = k then (k, v) :: l else e :: setEntry k v l

theorem lookupEntry_eq_none_iff {k : α} {l : List (α × β)} :
    lookupEntry k l = none ↔ k ∉ l.map Prod.fst := by
  induction l with
  | nil => simp [lookupEntry]
  | cons e l ih =>
    by_cases h : e.1 = k
    · simp [lookupEntry, h]
    · have hk : ¬k = e.1 := fun he ↦ h he.symm
      rw [lookupEntry, if_neg h, ih, List.map_cons, List.mem_cons, or_iff_right hk]

theorem lookupEntry_eq_some_iff {k : α} {v : β} {l : List (α × β)}
    (hl : (l.map Prod.fst).Nodup) : lookupEntry k l = some v ↔ (k, v) ∈ l := by
  induction l with
  | nil => simp [lookupEntry]
  | cons e l ih =>
    obtain ⟨a, b⟩ := e
    obtain ⟨ha, hl⟩ := List.nodup_cons.mp hl
    by_cases h : a = k
    · subst h
      have hv : (a, v) ∉ l := by
        intro hmem
        exact ha (List.mem_map.mpr ⟨(a, v), hmem, rfl⟩)
      simp [lookupEntry, hv, eq_comm]
    · simp [lookupEntry, h, ih hl, Ne.symm h]

theorem mem_of_lookupEntry {k : α} {v : β} {l : List (α × β)} (h : lookupEntry k l = some v) :
    (k, v) ∈ l := by
  induction l with
  | nil => cases h
  | cons e l ih =>
    by_cases he : e.1 = k
    · rw [lookupEntry, if_pos he, Option.some.injEq] at h
      rw [← he, ← h]
      exact List.mem_cons_self
    · rw [lookupEntry, if_neg he] at h
      exact List.mem_cons_of_mem _ (ih h)

theorem map_fst_setEntry (k : α) (v : β) (l : List (α × β)) :
    (setEntry k v l).map Prod.fst =
      if k ∈ l.map Prod.fst then l.map Prod.fst else l.map Prod.fst ++ [k] := by
  induction l with
  | nil => simp [setEntry]
  | cons e l ih =>
    by_cases h : e.1 = k
    · simp [setEntry, h]
    · by_cases hk : k ∈ l.map Prod.fst
      · rw [if_pos hk] at ih
        simp only [setEntry, h, if_false, List.map_cons, List.mem_cons, hk, or_true, if_true, ih]
      · rw [if_neg hk] at ih
        simp only [setEntry, h, if_false, List.map_cons, List.mem_cons, hk, or_false,
          Ne.symm h, ih, List.cons_append]

theorem lookupEntry_setEntry (k j : α) (v : β) (l : List (α × β)) :
    lookupEntry j (setEntry k v l) = if j = k then some v else lookupEntry j l := by
  induction l with
  | nil => simp [setEntry, lookupEntry, eq_comm]
  | cons e l ih =>
    by_cases h : e.1 = k
    · by_cases hj : j = k
      · simp [setEntry, lookupEntry, h, hj]
      · have hjk : ¬k = j := fun hk ↦ hj hk.symm
        simp [setEntry, lookupEntry, h, hj, hjk]
    · by_cases hj : j = k
      · subst hj
        simp only [setEntry, h, if_false, lookupEntry, ih, if_true]
      · simp only [setEntry, h, if_false, lookupEntry, ih, hj]

theorem lookupEntry_map (k : α) (f : α → β → γ) (l : List (α × β)) :
    lookupEntry k (l.map fun e ↦ (e.1, f e.1 e.2)) = (lookupEntry k l).map (f k) := by
  induction l with
  | nil => rfl
  | cons e l ih =>
    by_cases h : e.1 = k
    · subst h
      simp [lookupEntry]
    · simpa [lookupEntry, h] using ih

theorem lookupEntry_append (k : α) (l l' : List (α × β)) :
    lookupEntry k (l ++ l') = (lookupEntry k l).or (lookupEntry k l') := by
  induction l with
  | nil => rfl
  | cons e l ih =>
    by_cases h : e.1 = k
    · simp [lookupEntry, h]
    · simpa [lookupEntry, h] using ih

theorem setEntry_eq_self {k : α} {v : β} {l : List (α × β)} (h : lookupEntry k l = some v) :
    setEntry k v l = l := by
  induction l with
  | nil => cases h
  | cons e l ih =>
    by_cases he : e.1 = k
    · rw [lookupEntry, if_pos he, Option.some.injEq] at h
      rw [setEntry, if_pos he, ← he, ← h]
    · rw [lookupEntry, if_neg he] at h
      rw [setEntry, if_neg he, ih h]

end Entries

/-! ### The operations -/

/-- The empty map. -/
def empty : InsertionMap α β := ⟨[], List.nodup_nil⟩

instance : Inhabited (InsertionMap α β) := ⟨empty⟩

/-- The listed keys. -/
def keys (m : InsertionMap α β) : List α := m.entries.map Prod.fst

/-- The listed values, in the order of their keys. -/
def values (m : InsertionMap α β) : List β := m.entries.map Prod.snd

/-- The number of keys. -/
def size (m : InsertionMap α β) : ℕ := m.entries.length

/-- Keep the entries that satisfy a test. -/
def filter (p : α → β → Bool) (m : InsertionMap α β) : InsertionMap α β :=
  ⟨m.entries.filter fun e ↦ p e.1 e.2,
    m.nodup_keys.sublist ((List.filter_sublist).map Prod.fst)⟩

/-- Rewrite every value, keeping keys and order. -/
def mapValues (f : α → β → γ) (m : InsertionMap α β) : InsertionMap α γ :=
  ⟨m.entries.map fun e ↦ (e.1, f e.1 e.2), by
    simpa [List.map_map, Function.comp_def] using m.nodup_keys⟩

@[simp] theorem size_mapValues (m : InsertionMap α β) (f : α → β → γ) :
    (m.mapValues f).size = m.size := by
  simp [size, mapValues]

theorem eq_empty_of_size_eq_zero {m : InsertionMap α β} (h : m.size = 0) : m = empty :=
  ext (List.length_eq_zero_iff.mp h)

section Operations

variable [DecidableEq α]

/-- The value at a key. -/
def get (m : InsertionMap α β) (k : α) : Option β := lookupEntry k m.entries

/-- Whether a key is present. -/
@[grind =] def has (m : InsertionMap α β) (k : α) : Bool := (m.get k).isSome

/-- Set a key: in place when present, last otherwise. -/
def set (m : InsertionMap α β) (k : α) (v : β) : InsertionMap α β :=
  ⟨setEntry k v m.entries, by
    rw [map_fst_setEntry]
    split_ifs with hk
    · exact m.nodup_keys
    · exact List.nodup_append.mpr ⟨m.nodup_keys, List.nodup_singleton k,
        by rintro a ha b hb rfl; exact hk (List.mem_singleton.mp hb ▸ ha)⟩⟩

/-- Remove a key. -/
def delete (m : InsertionMap α β) (k : α) : InsertionMap α β :=
  m.filter fun a _ ↦ a ≠ k

/-- Set every listed pair, from left to right. -/
@[grind =] def setAll (m : InsertionMap α β) (l : List (α × β)) : InsertionMap α β :=
  l.foldl (fun acc e ↦ acc.set e.1 e.2) m

/-- Remove every listed key. -/
def deleteAll (m : InsertionMap α β) (ks : List α) : InsertionMap α β :=
  m.filter fun a _ ↦ a ∉ ks

/-! ### Lookup after each operation -/

@[simp] theorem get_empty (k : α) : (empty : InsertionMap α β).get k = none := rfl

/-- **Found exactly when listed.** The distinctness field is what makes this an equivalence. -/
theorem mem_entries_iff {m : InsertionMap α β} {k : α} {v : β} :
    (k, v) ∈ m.entries ↔ m.get k = some v :=
  (lookupEntry_eq_some_iff m.nodup_keys).symm

theorem mem_keys_iff {m : InsertionMap α β} {k : α} : k ∈ m.keys ↔ ∃ v, m.get k = some v := by
  simp [keys, ← mem_entries_iff]

theorem mem_values_iff {m : InsertionMap α β} {v : β} :
    v ∈ m.values ↔ ∃ k, m.get k = some v := by
  simp [values, ← mem_entries_iff]

theorem has_iff {m : InsertionMap α β} {k : α} : m.has k = true ↔ ∃ v, m.get k = some v := by
  simp [has, Option.isSome_iff_exists]

theorem get_eq_none_of_not_has {m : InsertionMap α β} {k : α} (h : ¬m.has k = true) :
    m.get k = none := by
  simpa [has] using h

theorem get_set (m : InsertionMap α β) (k j : α) (v : β) :
    (m.set k v).get j = if j = k then some v else m.get j :=
  lookupEntry_setEntry k j v m.entries

@[simp] theorem get_set_self (m : InsertionMap α β) (k : α) (v : β) :
    (m.set k v).get k = some v := by
  rw [get_set, if_pos rfl]

theorem get_set_of_ne (m : InsertionMap α β) {k j : α} (v : β) (h : j ≠ k) :
    (m.set k v).get j = m.get j := by
  rw [get_set, if_neg h]

theorem get_filter (m : InsertionMap α β) (p : α → β → Bool) (k : α) :
    (m.filter p).get k = (m.get k).filter (p k) := by
  cases h : m.get k with
  | none =>
    cases h' : (m.filter p).get k with
    | none => rfl
    | some v =>
      have hmem := (List.mem_filter.mp (mem_entries_iff.mpr h')).1
      rw [mem_entries_iff.mp hmem] at h
      cases h
  | some v =>
    cases hp : p k v with
    | true =>
      have hmem : (k, v) ∈ (m.filter p).entries :=
        List.mem_filter.mpr ⟨mem_entries_iff.mpr h, hp⟩
      rw [mem_entries_iff.mp hmem, Option.filter_some_pos hp]
    | false =>
      rw [Option.filter_some_neg (by simp [hp])]
      cases h' : (m.filter p).get k with
      | none => rfl
      | some w =>
        have hmem := List.mem_filter.mp (mem_entries_iff.mpr h')
        rw [mem_entries_iff.mp hmem.1] at h
        cases h
        simp [hp] at hmem

theorem get_delete (m : InsertionMap α β) (k j : α) :
    (m.delete k).get j = if j = k then none else m.get j := by
  rw [delete, get_filter]
  by_cases h : j = k
  · cases m.get j <;> simp [h]
  · cases m.get j <;> simp [h]

@[simp] theorem get_delete_self (m : InsertionMap α β) (k : α) : (m.delete k).get k = none := by
  rw [get_delete, if_pos rfl]

theorem get_delete_of_ne (m : InsertionMap α β) {k j : α} (h : j ≠ k) :
    (m.delete k).get j = m.get j := by
  rw [get_delete, if_neg h]

/-- Deleting a key that is not there changes nothing. -/
theorem delete_eq_self {m : InsertionMap α β} {k : α} (h : m.get k = none) : m.delete k = m := by
  ext1
  refine List.filter_eq_self.mpr fun e he ↦ ?_
  have hne : e.1 ≠ k := by
    rintro rfl
    rw [mem_entries_iff.mp he] at h
    cases h
  simpa using hne

theorem get_deleteAll (m : InsertionMap α β) (ks : List α) (j : α) :
    (m.deleteAll ks).get j = if j ∈ ks then none else m.get j := by
  rw [deleteAll, get_filter]
  by_cases h : j ∈ ks
  · cases m.get j <;> simp [h]
  · cases m.get j <;> simp [h]

theorem get_mapValues (m : InsertionMap α β) (f : α → β → γ) (k : α) :
    (m.mapValues f).get k = (m.get k).map (f k) :=
  lookupEntry_map k f m.entries

/-- **Setting what is already there changes nothing**, not even the order. -/
theorem set_eq_self {m : InsertionMap α β} {k : α} {v : β} (h : m.get k = some v) :
    m.set k v = m :=
  ext (setEntry_eq_self h)

theorem get_setAll_of_not_mem (m : InsertionMap α β) {l : List (α × β)} {j : α}
    (h : j ∉ l.map Prod.fst) : (m.setAll l).get j = m.get j := by
  induction l generalizing m with
  | nil => rfl
  | cons e l ih =>
    simp only [List.map_cons, List.mem_cons, not_or] at h
    rw [setAll, List.foldl_cons, ← setAll, ih _ h.2, get_set_of_ne _ _ h.1]

/-- Setting a list of pairs, **the last pair of a key wins**. -/
theorem get_setAll_reverse (m : InsertionMap α β) (l : List (α × β)) (j : α) :
    (m.setAll l).get j = (lookupEntry j l.reverse).or (m.get j) := by
  induction l generalizing m with
  | nil => rfl
  | cons e l ih =>
    rw [setAll, List.foldl_cons, ← setAll, ih, List.reverse_cons, lookupEntry_append, get_set,
      Option.or_assoc]
    congr 1
    by_cases h : j = e.1
    · simp [lookupEntry, h]
    · have h' : ¬e.1 = j := fun he ↦ h he.symm
      simp [lookupEntry, h, h']

/-- Setting distinct keys one after the other is reading the list first. -/
theorem get_setAll (m : InsertionMap α β) {l : List (α × β)} (hl : (l.map Prod.fst).Nodup)
    (j : α) : (m.setAll l).get j = (lookupEntry j l).or (m.get j) := by
  induction l generalizing m with
  | nil => rfl
  | cons e l ih =>
    obtain ⟨he, hl⟩ := List.nodup_cons.mp hl
    rw [setAll, List.foldl_cons, ← setAll, ih _ hl]
    by_cases h : e.1 = j
    · subst h
      rw [lookupEntry_eq_none_iff.mpr he, lookupEntry, if_pos rfl, get_set_self]
      rfl
    · rw [lookupEntry, if_neg h, get_set_of_ne _ _ (Ne.symm h)]

/-- Setting keys to what they hold in another map. -/
theorem get_setAll_of_forall (m : InsertionMap α β) {m' : InsertionMap α β} {l : List (α × β)}
    (hl : ∀ p ∈ l, m'.get p.1 = some p.2) (j : α) :
    (m.setAll l).get j = if j ∈ l.map Prod.fst then m'.get j else m.get j := by
  induction l generalizing m with
  | nil => rfl
  | cons p l ih =>
    show ((m.set p.1 p.2).setAll l).get j = _
    rw [ih (m.set p.1 p.2) fun q hq ↦ hl q (List.mem_cons_of_mem _ hq), get_set]
    by_cases hj : j = p.1
    · subst hj
      rw [List.map_cons, if_pos List.mem_cons_self, if_pos rfl, hl p List.mem_cons_self, ite_self]
    · rw [if_neg hj, List.map_cons]
      simp only [List.mem_cons, hj, false_or]

/-- Filling an empty map with the entries of another restores its lookups. -/
theorem get_empty_setAll_entries (m : InsertionMap α β) (j : α) :
    ((empty : InsertionMap α β).setAll m.entries).get j = m.get j := by
  rw [get_setAll _ m.nodup_keys, get_empty, Option.or_none]
  rfl

/-! ### Values and size -/

omit [DecidableEq α] in
theorem filter_filter (m : InsertionMap α β) (p q : α → β → Bool) :
    (m.filter p).filter q = m.filter fun k v ↦ p k v && q k v := by
  refine InsertionMap.ext ?_
  show (m.entries.filter _).filter _ = m.entries.filter _
  rw [List.filter_filter]
  exact List.filter_congr fun _ _ ↦ Bool.and_comm _ _

/-- A filter depends on the test at what is stored only. -/
theorem filter_congr {m : InsertionMap α β} {p q : α → β → Bool}
    (h : ∀ k v, m.get k = some v → p k v = q k v) : m.filter p = m.filter q :=
  InsertionMap.ext (List.filter_congr fun e he ↦ h e.1 e.2 (mem_entries_iff.mp he))

/-- Two filters that keep the same are equal. -/
theorem filter_eq_filter {m : InsertionMap α β} {p q : α → β → Bool}
    (h : ∀ k v, (m.filter p).get k = some v ↔ (m.filter q).get k = some v) :
    m.filter p = m.filter q := by
  refine filter_congr fun k v hkv ↦ ?_
  have hiff := h k v
  rw [get_filter, get_filter, Option.filter_eq_some_iff, Option.filter_eq_some_iff,
    and_iff_right hkv, and_iff_right hkv] at hiff
  exact Bool.eq_iff_iff.mpr hiff

@[simp] theorem deleteAll_nil (m : InsertionMap α β) : m.deleteAll [] = m :=
  ext (List.filter_eq_self.mpr fun _ _ ↦ by simp)

theorem deleteAll_delete (m : InsertionMap α β) (k : α) (ks : List α) :
    (m.delete k).deleteAll ks = m.deleteAll (k :: ks) := by
  rw [delete, deleteAll, deleteAll, filter_filter]
  refine filter_congr fun j v _ ↦ ?_
  by_cases hj : j = k <;> simp [hj]

/-- Deleting the keys of the entries that satisfy a test leaves the others. -/
theorem deleteAll_keys_filter (m : InsertionMap α β) (p : α → β → Bool) :
    m.deleteAll (m.filter p).keys = m.filter fun k v ↦ !p k v := by
  refine filter_congr fun k v hv ↦ ?_
  have hmem : k ∈ (m.filter p).keys ↔ p k v = true := by
    rw [mem_keys_iff, get_filter, hv]
    constructor
    · rintro ⟨w, hw⟩
      obtain ⟨hw, hp⟩ := Option.filter_eq_some_iff.mp hw
      rwa [Option.some.inj hw]
    · intro hp
      exact ⟨v, Option.filter_some_pos hp⟩
  cases hp : p k v <;> simp [hmem, hp]

theorem mem_values_filter {m : InsertionMap α β} {p : α → β → Bool} {v : β} :
    v ∈ (m.filter p).values ↔ ∃ k, m.get k = some v ∧ p k v = true := by
  simp [mem_values_iff, get_filter, Option.filter_eq_some_iff]

theorem setEntry_of_not_mem {k : α} (v : β) {l : List (α × β)} (h : k ∉ l.map Prod.fst) :
    setEntry k v l = l ++ [(k, v)] := by
  induction l with
  | nil => rfl
  | cons e l ih =>
    rw [List.map_cons, List.mem_cons, not_or] at h
    rw [setEntry, if_neg (Ne.symm h.1), ih h.2, List.cons_append]

/-- A new key is set last. -/
theorem entries_set_of_get_eq_none {m : InsertionMap α β} {k : α} (v : β) (h : m.get k = none) :
    (m.set k v).entries = m.entries ++ [(k, v)] :=
  setEntry_of_not_mem v (lookupEntry_eq_none_iff.mp h)

/-- Setting the missing entries of a map, in their order, completes it. -/
theorem setAll_eq_of_entries {m m' : InsertionMap α β} {l : List (α × β)}
    (h : m'.entries = m.entries ++ l) : m.setAll l = m' := by
  induction l generalizing m with
  | nil => exact ext (by rw [h, List.append_nil]; rfl)
  | cons p l ih =>
    have hnew : m.get p.1 = none := by
      refine lookupEntry_eq_none_iff.mpr fun hmem ↦ ?_
      have hnodup := m'.nodup_keys
      rw [h, List.map_append] at hnodup
      exact (List.nodup_append.mp hnodup).2.2 _ hmem p.1 List.mem_cons_self rfl
    refine ih ?_
    rw [entries_set_of_get_eq_none p.2 hnew, h, List.append_assoc, List.singleton_append]

/-- What was set under a key last is what counts. -/
theorem set_set (m : InsertionMap α β) (k : α) (v w : β) : (m.set k v).set k w = m.set k w := by
  refine InsertionMap.ext ?_
  show setEntry k w (setEntry k v m.entries) = setEntry k w m.entries
  induction m.entries with
  | nil => simp [setEntry]
  | cons e l ih =>
    by_cases h : e.1 = k
    · simp [setEntry, h]
    · simp [setEntry, h, ih]

/-- A new key that is deleted again leaves the map as it was. -/
theorem delete_set_of_get_eq_none {m : InsertionMap α β} {k : α} (v : β) (h : m.get k = none) :
    (m.set k v).delete k = m := by
  have hdelete := delete_eq_self h
  have hfilter : (m.set k v).delete k = m.delete k := by
    refine InsertionMap.ext ?_
    show (m.set k v).entries.filter _ = m.entries.filter _
    rw [entries_set_of_get_eq_none v h, List.filter_append, List.filter_singleton]
    simp
  rw [hfilter, hdelete]

/-- What a filter drops need not have been set, under a new key. -/
theorem filter_set_of_neg {m : InsertionMap α β} {p : α → β → Bool} {k : α} {v : β}
    (h : m.get k = none) (hp : p k v = false) : (m.set k v).filter p = m.filter p := by
  refine InsertionMap.ext ?_
  show (m.set k v).entries.filter _ = m.entries.filter _
  rw [entries_set_of_get_eq_none v h, List.filter_append, List.filter_singleton]
  simp [hp]

theorem size_set_of_has {m : InsertionMap α β} {k : α} (v : β) (h : m.has k = true) :
    (m.set k v).size = m.size := by
  have hk : k ∈ m.entries.map Prod.fst := mem_keys_iff.mpr (has_iff.mp h)
  have hlen := congrArg List.length (map_fst_setEntry k v m.entries)
  rw [if_pos hk] at hlen
  simpa [size, set] using hlen

theorem size_set_of_not_has {m : InsertionMap α β} {k : α} (v : β) (h : m.has k = false) :
    (m.set k v).size = m.size + 1 := by
  have hk : k ∉ m.entries.map Prod.fst := by
    intro hk
    rw [has_iff.mpr (mem_keys_iff.mp hk)] at h
    cases h
  have hlen := congrArg List.length (map_fst_setEntry k v m.entries)
  rw [if_neg hk] at hlen
  simpa [size, set] using hlen

/-- How many entries meet a condition after one more is set. -/
theorem countP_set_le (m : InsertionMap α β) (p : α × β → Bool) (k : α) (v : β) :
    (m.set k v).entries.countP p ≤ m.entries.countP p + 1 := by
  show (setEntry k v m.entries).countP p ≤ _
  induction m.entries with
  | nil =>
    rw [setEntry, List.countP_singleton]
    split <;> simp
  | cons e l ih =>
    rw [setEntry]
    split
    · rw [List.countP_cons, List.countP_cons]
      split <;> split <;> omega
    · rw [List.countP_cons, List.countP_cons]
      omega

theorem countP_set_le_of_not (m : InsertionMap α β) {p : α × β → Bool} {k : α} {v : β}
    (h : p (k, v) = false) : (m.set k v).entries.countP p ≤ m.entries.countP p := by
  show (setEntry k v m.entries).countP p ≤ _
  induction m.entries with
  | nil => simp [setEntry, h]
  | cons e l ih =>
    rw [setEntry]
    split
    · rw [List.countP_cons, List.countP_cons, h]
      simp
    · rw [List.countP_cons, List.countP_cons]
      omega

omit [DecidableEq α] in
theorem countP_filter_le (m : InsertionMap α β) (p : α × β → Bool) (q : α → β → Bool) :
    (m.filter q).entries.countP p ≤ m.entries.countP p :=
  List.Sublist.countP_le List.filter_sublist

end Operations

end InsertionMap
