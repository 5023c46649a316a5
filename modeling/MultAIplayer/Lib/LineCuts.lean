import Mathlib.Data.List.Infix

/-!
# Cutting at line boundaries

The first and the last items of a list, cut back to a separator if there is one among them. A head
that ends before a separator is kept by the cut of the head (`prefix_headAtBoundary`), a tail that
starts behind one by the cut of the tail (`suffix_tailAtBoundary`), whatever stands in between.
-/

namespace LineCuts

variable {α : Type} [DecidableEq α] (sep : α)

/-- `lastIndexOf`, for a single item. -/
def lastIndexOf : List α → Option ℕ
  | [] => none
  | a :: l =>
    match lastIndexOf l with
    | some i => some (i + 1)
    | none => if a = sep then some 0 else none

/-- The first `n` items up to the last separator among them that is not the first item. -/
@[grind =] def headAtBoundary (n : ℕ) (l : List α) : List α :=
  if l.length ≤ n then l
  else
    let slice := l.take n
    match lastIndexOf sep slice with
    | some boundary => if 0 < boundary then slice.take boundary else slice
    | none => slice

/-- The last `n` items from behind the first separator among them. -/
@[grind =] def tailAtBoundary (n : ℕ) (l : List α) : List α :=
  if l.length ≤ n then l
  else
    let slice := l.drop (l.length - n)
    match slice.idxOf? sep with
    | some boundary => slice.drop (boundary + 1)
    | none => slice

variable {sep} {l p s : List α} {n : ℕ}

/-- A separator is not behind the last one. -/
theorem le_lastIndexOf (sep : α) (p s : List α) :
    ∃ i, lastIndexOf sep (p ++ sep :: s) = some i ∧ p.length ≤ i := by
  induction p with
  | nil =>
    show ∃ i, (match lastIndexOf sep s with
      | some i => some (i + 1)
      | none => if sep = sep then some 0 else none) = some i ∧ 0 ≤ i
    cases lastIndexOf sep s with
    | some i => exact ⟨i + 1, rfl, Nat.zero_le _⟩
    | none => exact ⟨0, if_pos rfl, Nat.le_refl _⟩
  | cons a p ih =>
    obtain ⟨i, hi, hle⟩ := ih
    refine ⟨i + 1, ?_, Nat.succ_le_succ hle⟩
    show (match lastIndexOf sep (p ++ sep :: s) with
      | some i => some (i + 1)
      | none => if a = sep then some 0 else none) = some (i + 1)
    rw [hi]

theorem length_headAtBoundary_le (sep : α) (n : ℕ) (l : List α) :
    (headAtBoundary sep n l).length ≤ n := by
  unfold headAtBoundary
  split
  · assumption
  have hslice : (l.take n).length ≤ n := List.length_take_le _ _
  dsimp only
  split
  · split
    · exact (List.length_take_le' _ _).trans hslice
    · exact hslice
  · exact hslice

theorem length_tailAtBoundary_le (sep : α) (n : ℕ) (l : List α) :
    (tailAtBoundary sep n l).length ≤ n := by
  unfold tailAtBoundary
  split
  · assumption
  have hslice : (l.drop (l.length - n)).length ≤ n := by
    rw [List.length_drop]
    omega
  dsimp only
  split
  · rw [List.length_drop]
    omega
  · exact hslice

/-- **What ends before a separator is kept at the head.** -/
theorem prefix_headAtBoundary (hp : p ≠ []) (h : p ++ [sep] <+: l) (hn : p.length < n) :
    p <+: headAtBoundary sep n l := by
  have hpl : p <+: l := (List.prefix_append p [sep]).trans h
  unfold headAtBoundary
  split
  · exact hpl
  have hslice : p ++ [sep] <+: l.take n := by
    rw [List.prefix_take_iff]
    refine ⟨h, ?_⟩
    rw [List.length_append, List.length_singleton]
    omega
  obtain ⟨s, hs⟩ := hslice
  rw [List.append_assoc, List.singleton_append] at hs
  obtain ⟨i, hi, hle⟩ := le_lastIndexOf sep p s
  dsimp only
  rw [← hs, hi]
  have hpos : 0 < p.length := List.length_pos_of_ne_nil hp
  dsimp only
  rw [if_pos (by omega), List.prefix_take_iff]
  exact ⟨List.prefix_append _ _, hle⟩

theorem headAtBoundary_prefix : headAtBoundary sep n l <+: l := by
  unfold headAtBoundary
  split
  · exact List.prefix_rfl
  have hslice : l.take n <+: l := List.take_prefix _ _
  dsimp only
  split
  · split
    · exact (List.take_prefix _ _).trans hslice
    · exact hslice
  · exact hslice

theorem tailAtBoundary_suffix : tailAtBoundary sep n l <:+ l := by
  unfold tailAtBoundary
  split
  · exact List.suffix_rfl
  have hslice : l.drop (l.length - n) <:+ l := List.drop_suffix _ _
  dsimp only
  split
  · exact (List.drop_suffix _ _).trans hslice
  · exact hslice

/-- The head that is kept ends at a separator, which stands in the rest of the head or behind it. -/
theorem prefix_headAtBoundary_append (hp : p ≠ []) (h : p ++ [sep] <+: l) (hn : p.length < n)
    (t : List α) : p ++ [sep] <+: headAtBoundary sep n l ++ sep :: t := by
  obtain ⟨s, hs⟩ := prefix_headAtBoundary hp h hn
  rw [← hs]
  cases s with
  | nil => exact ⟨t, by simp⟩
  | cons a s =>
    have hle : (p ++ [sep]).length ≤ (p ++ a :: s).length := by simp
    have hprefix : p ++ a :: s <+: l := hs ▸ headAtBoundary_prefix
    exact (List.prefix_of_prefix_length_le h hprefix hle).trans (List.prefix_append _ _)

/-- **What starts behind a separator is kept at the tail.** -/
theorem suffix_tailAtBoundary (h : sep :: s <:+ l) (hn : s.length < n) :
    s <:+ tailAtBoundary sep n l := by
  have hsl : s <:+ l := (List.suffix_cons sep s).trans h
  unfold tailAtBoundary
  split
  · exact hsl
  rename_i hlong
  have hslice : sep :: s <:+ l.drop (l.length - n) := by
    obtain ⟨p, rfl⟩ := h
    rw [List.length_append, List.length_cons] at hlong ⊢
    rw [List.drop_append_of_le_length (by omega)]
    exact List.suffix_append _ _
  obtain ⟨p, hp⟩ := hslice
  dsimp only
  split
  · rename_i i hi
    -- The first separator is not behind the one before the tail.
    have hle : i ≤ p.length := by
      rw [← hp] at hi
      have := List.findIdx?_eq_some_iff_getElem.mp hi
      by_contra hlt
      have := this.2.2 p.length (by omega)
      simp at this
    rw [← hp, List.drop_append]
    have hcons : sep :: s = [sep] ++ s := rfl
    rcases Nat.lt_or_ge i p.length with hlt | hge
    · rw [show i + 1 - p.length = 0 by omega, List.drop_zero, hcons, ← List.append_assoc]
      exact List.suffix_append _ _
    · rw [show i + 1 - p.length = 1 by omega, List.drop_one, List.tail_cons]
      exact List.suffix_append _ _
  · rw [← hp]
    exact (List.suffix_cons sep s).trans (List.suffix_append _ _)

/-- The tail that is kept starts behind a separator, which stands in the rest of the tail or before
it. -/
theorem suffix_append_tailAtBoundary (h : sep :: s <:+ l) (hn : s.length < n) (t : List α) :
    sep :: s <:+ (t ++ [sep]) ++ tailAtBoundary sep n l := by
  obtain ⟨p, hp⟩ := suffix_tailAtBoundary h hn
  rw [← hp]
  rcases List.eq_nil_or_concat p with rfl | ⟨p, a, rfl⟩
  · exact ⟨t, by simp⟩
  · rw [List.concat_eq_append] at hp ⊢
    have hle : (sep :: s).length ≤ (p ++ [a] ++ s).length := by simp
    have hsuffix : p ++ [a] ++ s <:+ l := hp ▸ tailAtBoundary_suffix
    exact (List.suffix_of_suffix_length_le h hsuffix hle).trans (List.suffix_append _ _)

end LineCuts
