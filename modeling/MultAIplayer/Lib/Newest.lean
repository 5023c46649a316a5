import Mathlib.Data.List.Sort

/-!
# The newest of a list

Sorting by age is stable, so it commutes with leaving things out (`filter_insertionSort`): what a
pool keeps does not depend on whether the pool is taken before or after the sort. The newest entries
of a list are the last ones of the sorted list, ties by their order in the list.
-/

namespace List

variable {α : Type} {r : α → α → Prop} [DecidableRel r]

theorem orderedInsert_of_forall_rel {a : α} {l : List α} (h : ∀ b ∈ l, r a b) :
    l.orderedInsert r a = a :: l := by
  cases l with
  | nil => rfl
  | cons b l => exact orderedInsert_cons_of_le r l (h b mem_cons_self)

theorem filter_orderedInsert [IsTrans α r] (p : α → Bool) (a : α) {l : List α}
    (h : l.Pairwise r) :
    (l.orderedInsert r a).filter p =
      if p a then (l.filter p).orderedInsert r a else l.filter p := by
  induction l with
  | nil =>
    rw [orderedInsert_nil, filter_cons, filter_nil]
    rfl
  | cons b l ih =>
    obtain ⟨hb, hl⟩ := pairwise_cons.mp h
    by_cases hab : r a b
    · rw [orderedInsert_cons_of_le r l hab, filter_cons]
      have hall : ∀ c ∈ (b :: l).filter p, r a c := by
        intro c hc
        rcases mem_cons.mp (mem_filter.mp hc).1 with rfl | hc
        · exact hab
        · exact trans_of r hab (hb c hc)
      rw [orderedInsert_of_forall_rel hall]
    · rw [orderedInsert_of_not_le r l hab, filter_cons, ih hl, filter_cons]
      cases hpb : p b with
      | false => rfl
      | true =>
        cases p a with
        | false => rfl
        | true => exact (orderedInsert_of_not_le r _ hab).symm

/-- **A stable sort commutes with leaving things out.** -/
theorem filter_insertionSort [IsTrans α r] [Std.Total r] (p : α → Bool) (l : List α) :
    (l.insertionSort r).filter p = (l.filter p).insertionSort r := by
  induction l with
  | nil => rfl
  | cons a l ih =>
    rw [insertionSort_cons, filter_orderedInsert p a (pairwise_insertionSort r l), ih, filter_cons]
    split_ifs <;> rfl

/-! ### The last of an order -/

section Last

variable {maximum : ℕ} {l : List α}

/-- What is left out when the last `maximum` entries in an order are kept. -/
@[grind =] def beyondLast (r : α → α → Prop) [DecidableRel r] (maximum : ℕ) (l : List α) : List α :=
  (l.insertionSort r).take (l.length - maximum)

@[simp] theorem length_beyondLast : (l.beyondLast r maximum).length = l.length - maximum := by
  rw [beyondLast, length_take, length_insertionSort]
  omega

theorem beyondLast_eq_nil (h : l.length ≤ maximum) : l.beyondLast r maximum = [] := by
  rw [beyondLast, Nat.sub_eq_zero_of_le h, take_zero]

theorem mem_of_mem_beyondLast {a : α} (h : a ∈ l.beyondLast r maximum) : a ∈ l :=
  (mem_insertionSort r).mp (mem_of_mem_take h)

theorem nodup_beyondLast (hl : l.Nodup) : (l.beyondLast r maximum).Nodup :=
  ((perm_insertionSort r l).nodup_iff.mpr hl).sublist (take_sublist _ _)

/-- **What is left out comes before what is kept.** -/
theorem rel_of_mem_beyondLast [IsTrans α r] [Std.Total r] {a b : α}
    (ha : a ∈ l.beyondLast r maximum) (hb : b ∈ l) (hkept : b ∉ l.beyondLast r maximum) :
    r a b := by
  have hsplit : l.beyondLast r maximum ++ (l.insertionSort r).drop (l.length - maximum) =
      l.insertionSort r := take_append_drop _ _
  have hsorted : (l.insertionSort r).Pairwise r := pairwise_insertionSort r l
  have hmem : b ∈ l.insertionSort r := (mem_insertionSort r).mpr hb
  rw [← hsplit] at hsorted hmem
  exact (pairwise_append.mp hsorted).2.2 a ha b ((mem_append.mp hmem).resolve_left hkept)

/-- As many are kept as there is room for. -/
theorem length_filter_not_mem_beyondLast [BEq α] [LawfulBEq α] (hl : l.Nodup) :
    (l.filter fun a ↦ a ∉ l.beyondLast r maximum).length = min l.length maximum := by
  have hperm : (l.filter fun a ↦ a ∈ l.beyondLast r maximum).Perm (l.beyondLast r maximum) := by
    refine (perm_ext_iff_of_nodup (hl.filter _) (nodup_beyondLast hl)).mpr fun a ↦ ?_
    rw [mem_filter, decide_eq_true_eq]
    exact ⟨And.right, fun h ↦ ⟨mem_of_mem_beyondLast h, h⟩⟩
  have hout : (l.filter fun a ↦ a ∈ l.beyondLast r maximum).length = l.length - maximum :=
    hperm.length_eq.trans length_beyondLast
  have hparts : (l.filter fun a ↦ a ∈ l.beyondLast r maximum).length +
      (l.filter fun a ↦ !decide (a ∈ l.beyondLast r maximum)).length = l.length :=
    (length_eq_length_filter_add _).symm
  have hkept : (l.filter fun a ↦ a ∉ l.beyondLast r maximum) =
      l.filter fun a ↦ !decide (a ∈ l.beyondLast r maximum) :=
    filter_congr fun a _ ↦ by rw [decide_not]
  rw [hkept]
  omega

end Last

section Newest

theorem filter_insertionSort_le (age : α → ℤ) (p : α → Bool) (l : List α) :
    (l.insertionSort fun a b ↦ age a ≤ age b).filter p =
      (l.filter p).insertionSort fun a b ↦ age a ≤ age b := by
  have : IsTrans α fun a b ↦ age a ≤ age b := ⟨fun _ _ _ hab hbc ↦ le_trans hab hbc⟩
  have : Std.Total fun a b : α ↦ age a ≤ age b := ⟨fun a b ↦ le_total (age a) (age b)⟩
  exact filter_insertionSort p l

/-- The newest `maximum` entries, oldest first. -/
def newest (age : α → ℤ) (maximum : ℕ) (l : List α) : List α :=
  (l.insertionSort fun a b ↦ age a ≤ age b).drop (l.length - maximum)

variable {age : α → ℤ} {maximum : ℕ} {l : List α}

/-- What is not among the oldest is among the newest. -/
theorem mem_newest_iff (hl : l.Nodup) {a : α} (ha : a ∈ l) :
    a ∈ l.newest age maximum ↔
      a ∉ (l.insertionSort fun a b ↦ age a ≤ age b).take (l.length - maximum) := by
  have hsorted : (l.insertionSort fun a b ↦ age a ≤ age b).Nodup :=
    (perm_insertionSort _ l).nodup_iff.mpr hl
  have hmem : a ∈ l.insertionSort fun a b ↦ age a ≤ age b := (mem_insertionSort _).mpr ha
  rw [← take_append_drop (l.length - maximum) (l.insertionSort _)] at hsorted hmem
  obtain ⟨-, -, hdisjoint⟩ := nodup_append.mp hsorted
  exact ⟨fun hnew hold ↦ hdisjoint a hold a hnew rfl,
    fun hold ↦ (mem_append.mp hmem).resolve_left hold⟩

theorem mem_of_mem_newest {a : α} (h : a ∈ l.newest age maximum) : a ∈ l :=
  (mem_insertionSort _).mp (mem_of_mem_drop h)

/-- What is among the newest stays so when others are left out. -/
theorem mem_newest_filter (p : α → Bool) {a : α} (h : a ∈ l.newest age maximum)
    (ha : p a = true) : a ∈ (l.filter p).newest age maximum := by
  let sorted := l.insertionSort fun a b ↦ age a ≤ age b
  let oldest := sorted.take (l.length - maximum)
  let newest := sorted.drop (l.length - maximum)
  have hlength : newest.length ≤ maximum := by
    rw [length_drop, length_insertionSort]
    omega
  have hsplit : (l.filter p).insertionSort (fun a b ↦ age a ≤ age b) =
      oldest.filter p ++ newest.filter p := by
    rw [← filter_insertionSort_le, ← filter_append, take_append_drop]
  have hcount : (l.filter p).length = (oldest.filter p).length + (newest.filter p).length := by
    rw [← length_append, ← hsplit, length_insertionSort]
  have hle : (l.filter p).length - maximum ≤ (oldest.filter p).length := by
    have := (length_filter_le p newest).trans hlength
    omega
  rw [List.newest, hsplit, drop_append_of_le_length hle]
  exact mem_append_right _ (mem_filter.mpr ⟨h, ha⟩)

/-- What few others are as new as is among the newest. -/
theorem mem_newest_of_countP_le (hl : l.Nodup) {a : α} (ha : a ∈ l)
    (h : (l.countP fun b ↦ age a ≤ age b) ≤ maximum) : a ∈ l.newest age maximum := by
  by_contra hnew
  have hold := not_not.mp (mt (mem_newest_iff hl ha).mpr hnew)
  let sorted := l.insertionSort fun a b ↦ age a ≤ age b
  have : IsTrans α fun a b ↦ age a ≤ age b := ⟨fun _ _ _ hab hbc ↦ le_trans hab hbc⟩
  have : Std.Total fun a b : α ↦ age a ≤ age b := ⟨fun a b ↦ le_total (age a) (age b)⟩
  have hsorted : (sorted.take (l.length - maximum) ++ sorted.drop (l.length - maximum)).Pairwise
      fun a b ↦ age a ≤ age b := by
    rw [take_append_drop]
    exact pairwise_insertionSort _ l
  have hlater := (pairwise_append.mp hsorted).2.2 a hold
  have hdrop : ((sorted.drop (l.length - maximum)).countP fun b ↦ age a ≤ age b) =
      (sorted.drop (l.length - maximum)).length :=
    countP_eq_length.mpr fun b hb ↦ decide_eq_true (hlater b hb)
  have htake : 0 < (sorted.take (l.length - maximum)).countP fun b ↦ age a ≤ age b :=
    countP_pos_iff.mpr ⟨a, hold, decide_eq_true le_rfl⟩
  have hcount : (l.countP fun b ↦ age a ≤ age b) =
      ((sorted.take (l.length - maximum)).countP fun b ↦ age a ≤ age b) +
        (sorted.drop (l.length - maximum)).countP fun b ↦ age a ≤ age b := by
    rw [← countP_append, take_append_drop]
    exact ((perm_insertionSort _ l).countP_eq _).symm
  -- something was left out, so the rest has the full length
  have hlong : 0 < l.length - maximum := by
    by_contra hshort
    rw [Nat.eq_zero_of_not_pos hshort, take_zero] at htake
    exact absurd htake (lt_irrefl 0)
  rw [length_drop, length_insertionSort] at hdrop
  omega

end Newest

end List
