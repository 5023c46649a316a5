import MultAIplayer.Lib.InsertionMap
import Mathlib.Algebra.BigOperators.Group.List.Basic
import Mathlib.Algebra.Order.BigOperators.Group.List
import Mathlib.Algebra.Ring.Int.Defs

/-!
# Tallies

The sum of the weights of the entries of a map, for accounts that are kept by differences. Setting
a key adds what it weighs now and takes away what it weighed before (`tally_set`); deleting it takes
away what it weighed (`tally_delete`). No other fact about the entries is needed to check an
account that is adjusted step by step.

A negative adjustment is an adjustment, so weights are integers.
-/

namespace InsertionMap

variable {α β : Type}

/-- The sum of the weights of the entries. -/
def tally (m : InsertionMap α β) (w : α → β → ℤ) : ℤ := (m.entries.map fun p ↦ w p.1 p.2).sum

@[simp] theorem tally_empty (w : α → β → ℤ) : (empty : InsertionMap α β).tally w = 0 := rfl

theorem tally_nonneg {m : InsertionMap α β} {w : α → β → ℤ} (h : ∀ k v, 0 ≤ w k v) :
    0 ≤ m.tally w := by
  refine List.sum_nonneg fun n hn ↦ ?_
  obtain ⟨p, -, rfl⟩ := List.mem_map.mp hn
  exact h p.1 p.2

/-- Entries that all weigh one are counted. -/
theorem tally_one (m : InsertionMap α β) : m.tally (fun _ _ ↦ 1) = m.size := by
  simp [tally, size]

/-- A part of the entries weighs no more than all of them. -/
theorem tally_filter_le (m : InsertionMap α β) {w : α → β → ℤ} (h : ∀ k v, 0 ≤ w k v)
    (p : α → β → Bool) : (m.filter p).tally w ≤ m.tally w := by
  refine List.Sublist.sum_le_sum (List.filter_sublist.map _) fun n hn ↦ ?_
  obtain ⟨e, -, rfl⟩ := List.mem_map.mp hn
  exact h e.1 e.2

section Operations

variable [DecidableEq α]

/-- What a key weighs. -/
@[grind =] def weightAt (m : InsertionMap α β) (w : α → β → ℤ) (k : α) : ℤ := (m.get k).elim 0 (w k)

theorem sum_setEntry (w : α → β → ℤ) (k : α) (v : β) (l : List (α × β)) :
    ((setEntry k v l).map fun p ↦ w p.1 p.2).sum =
      (l.map fun p ↦ w p.1 p.2).sum + w k v - (lookupEntry k l).elim 0 (w k) := by
  induction l with
  | nil => simp [setEntry, lookupEntry]
  | cons p l ih =>
    obtain ⟨a, b⟩ := p
    by_cases h : a = k
    · subst h
      simp only [setEntry, lookupEntry, if_true, List.map_cons, List.sum_cons, Option.elim]
      omega
    · simp only [setEntry, lookupEntry, h, if_false, List.map_cons, List.sum_cons, ih]
      omega

theorem tally_set (m : InsertionMap α β) (w : α → β → ℤ) (k : α) (v : β) :
    (m.set k v).tally w = m.tally w + w k v - m.weightAt w k :=
  sum_setEntry w k v m.entries

theorem sum_filter_ne (w : α → β → ℤ) (k : α) {l : List (α × β)} (h : (l.map Prod.fst).Nodup) :
    ((l.filter fun p ↦ decide (p.1 ≠ k)).map fun p ↦ w p.1 p.2).sum =
      (l.map fun p ↦ w p.1 p.2).sum - (lookupEntry k l).elim 0 (w k) := by
  induction l with
  | nil => rfl
  | cons p l ih =>
    obtain ⟨a, b⟩ := p
    obtain ⟨ha, hl⟩ := List.nodup_cons.mp h
    by_cases hak : a = k
    · subst hak
      -- the key is listed once, so nothing else is removed
      have hrest : lookupEntry a l = none := lookupEntry_eq_none_iff.mpr ha
      have hfilter := ih hl
      rw [hrest] at hfilter
      simp only [lookupEntry, if_true, Option.elim, List.map_cons, List.sum_cons]
      rw [List.filter_cons_of_neg (by simp), hfilter]
      simp only [Option.elim]
      omega
    · rw [List.filter_cons_of_pos (by simpa using hak), List.map_cons, List.sum_cons, ih hl]
      simp only [lookupEntry, hak, if_false, List.map_cons, List.sum_cons]
      omega

theorem tally_delete (m : InsertionMap α β) (w : α → β → ℤ) (k : α) :
    (m.delete k).tally w = m.tally w - m.weightAt w k :=
  sum_filter_ne w k m.nodup_keys

/-- Maps that hold the same under every key weigh the same, in whatever order. -/
theorem tally_congr {m m' : InsertionMap α β} (h : ∀ k, m.get k = m'.get k) (w : α → β → ℤ) :
    m.tally w = m'.tally w := by
  have hperm : m.entries.Perm m'.entries := by
    refine (List.perm_ext_iff_of_nodup m.nodup_keys.of_map m'.nodup_keys.of_map).mpr fun p ↦ ?_
    rw [mem_entries_iff (k := p.1) (v := p.2), mem_entries_iff (k := p.1) (v := p.2), h]
  exact (hperm.map _).sum_eq

end Operations

end InsertionMap
