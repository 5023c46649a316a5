import Mathlib.Data.List.Infix

/-!
# Lines of a stream

A text is cut into the lines that are complete, each with the separator that ends it, and the rest
behind the last separator. What arrives later continues the rest (`cut_append`), so a reader that
keeps the rest sees the lines of the whole text, however the text arrives.
-/

namespace LineStream

variable {α : Type} [DecidableEq α] (sep : α)

/-- The complete lines and the rest. -/
@[grind =] def cut : List α → List (List α) × List α
  | [] => ([], [])
  | a :: l =>
    if a = sep then ([a] :: (cut l).1, (cut l).2)
    else
      match (cut l).1 with
      | [] => ([], a :: (cut l).2)
      | line :: lines => ((a :: line) :: lines, (cut l).2)

/-- What stands behind the first separator. -/
@[grind =] def behindLine : List α → Option (List α)
  | [] => none
  | a :: l => if a = sep then some l else behindLine l

/-- The complete lines, and the rest if there is any. -/
def wholeLines (l : List α) : List (List α) :=
  (cut sep l).1 ++ if (cut sep l).2.isEmpty then [] else [(cut sep l).2]

variable {sep} {l s t : List α}

theorem cut_sep_cons (l : List α) :
    cut sep (sep :: l) = ([sep] :: (cut sep l).1, (cut sep l).2) := by
  rw [cut, if_pos rfl]

/-- Items that do not end a line stand at the head of the first line, or of the rest. -/
theorem cut_append_of_not_mem (hs : sep ∉ s) :
    cut sep (s ++ t) =
      match (cut sep t).1 with
      | [] => ([], s ++ (cut sep t).2)
      | line :: lines => ((s ++ line) :: lines, (cut sep t).2) := by
  induction s with
  | nil =>
    rw [List.nil_append]
    rcases cut sep t with ⟨_ | ⟨line, lines⟩, rest⟩ <;> rfl
  | cons a s ih =>
    rw [List.mem_cons, not_or] at hs
    rw [List.cons_append, cut, if_neg (Ne.symm hs.1), ih hs.2]
    rcases cut sep t with ⟨_ | ⟨line, lines⟩, rest⟩ <;> rfl

theorem cut_of_not_mem (hs : sep ∉ s) : cut sep s = ([], s) := by
  have hcut := cut_append_of_not_mem (t := []) hs
  rw [List.append_nil] at hcut
  rw [hcut]
  show ([], s ++ []) = _
  rw [List.append_nil]

/-- Up to its first separator, a text is one line. -/
theorem cut_line (hs : sep ∉ s) :
    cut sep (s ++ sep :: t) = ((s ++ [sep]) :: (cut sep t).1, (cut sep t).2) := by
  rw [cut_append_of_not_mem hs, cut_sep_cons]

theorem flatten_cut (l : List α) : (cut sep l).1.flatten ++ (cut sep l).2 = l := by
  induction l with
  | nil => rfl
  | cons a l ih =>
    rw [cut]
    split
    · rw [List.flatten_cons, List.append_assoc, ih, List.singleton_append]
    · cases hlines : (cut sep l).1 with
      | nil =>
        rw [hlines] at ih
        exact congrArg (a :: ·) ih
      | cons line lines =>
        rw [hlines] at ih
        exact congrArg (a :: ·) ih

theorem not_mem_rest (l : List α) : sep ∉ (cut sep l).2 := by
  induction l with
  | nil => exact List.not_mem_nil
  | cons a l ih =>
    rw [cut]
    split
    · exact ih
    · next hne =>
      cases (cut sep l).1 with
      | nil => exact fun hmem ↦ (List.mem_cons.mp hmem).elim (fun h ↦ hne h.symm) ih
      | cons line lines => exact ih

/-- **What arrives later continues the rest.** -/
theorem cut_append (sep : α) (s t : List α) :
    cut sep (s ++ t) = ((cut sep s).1 ++ (cut sep ((cut sep s).2 ++ t)).1,
      (cut sep ((cut sep s).2 ++ t)).2) := by
  induction s with
  | nil => rfl
  | cons a s ih =>
    rw [List.cons_append, cut, ih, cut]
    split
    · rfl
    · next hne =>
      cases hlines : (cut sep s).1 with
      | nil =>
        dsimp only
        rw [List.nil_append, List.nil_append, List.cons_append, cut, if_neg hne]
      | cons line lines => rfl

omit [DecidableEq α] in
/-- A text either goes on without a separator, or has a first one. -/
theorem exists_line_or_not_mem (sep : α) (l : List α) :
    sep ∉ l ∨ ∃ s t, l = s ++ sep :: t ∧ sep ∉ s := by
  induction l with
  | nil => exact Or.inl List.not_mem_nil
  | cons a l ih =>
    rcases eq_or_ne a sep with rfl | hne
    · exact Or.inr ⟨[], l, rfl, List.not_mem_nil⟩
    · rcases ih with hl | ⟨s, t, rfl, hs⟩
      · refine Or.inl fun hmem ↦ (List.mem_cons.mp hmem).elim (fun h ↦ hne h.symm) hl
      · refine Or.inr ⟨a :: s, t, rfl, fun hmem ↦ ?_⟩
        exact (List.mem_cons.mp hmem).elim (fun h ↦ hne h.symm) hs

theorem behindLine_line (hs : sep ∉ s) : behindLine sep (s ++ sep :: t) = some t := by
  induction s with
  | nil => exact if_pos rfl
  | cons a s ih =>
    rw [List.mem_cons, not_or] at hs
    rw [List.cons_append, behindLine, if_neg (Ne.symm hs.1), ih hs.2]

theorem behindLine_of_not_mem (hs : sep ∉ s) : behindLine sep s = none := by
  induction s with
  | nil => rfl
  | cons a s ih =>
    rw [List.mem_cons, not_or] at hs
    rw [behindLine, if_neg (Ne.symm hs.1), ih hs.2]

/-- The rest of a part is the head of a line of the whole, if it is not empty. -/
theorem rest_prefix_line (sep : α) (s t : List α) :
    (cut sep s).2 = [] ∨ ∃ line ∈ wholeLines sep (s ++ t), (cut sep s).2 <+: line := by
  rcases eq_or_ne (cut sep s).2 [] with hnil | hne
  · exact Or.inl hnil
  refine Or.inr ?_
  unfold wholeLines
  rw [cut_append]
  rcases exists_line_or_not_mem sep t with ht | ⟨head, tail, rfl, hhead⟩
  · have hrest : cut sep ((cut sep s).2 ++ t) = ([], (cut sep s).2 ++ t) :=
      cut_of_not_mem fun hmem ↦ (List.mem_append.mp hmem).elim (not_mem_rest s) ht
    rw [hrest]
    refine ⟨(cut sep s).2 ++ t, List.mem_append_right _ ?_, List.prefix_append _ _⟩
    rw [if_neg (by simpa using fun h ↦ absurd h hne)]
    exact List.mem_singleton_self _
  · have hline : sep ∉ (cut sep s).2 ++ head := fun hmem ↦
      (List.mem_append.mp hmem).elim (not_mem_rest s) hhead
    rw [← List.append_assoc, cut_line hline]
    refine ⟨(cut sep s).2 ++ head ++ [sep], ?_, ?_⟩
    · exact List.mem_append_left _ (List.mem_append_right _ List.mem_cons_self)
    · rw [List.append_assoc]
      exact List.prefix_append _ _

/-! ### Lines without their ends -/

variable (sep)

/-- The lines, each with whether a separator ends it. -/
@[grind =] def flagged (l : List α) : List (List α × Bool) :=
  (cut sep l).1.map (fun line ↦ (line.dropLast, true)) ++
    if (cut sep l).2.isEmpty then [] else [((cut sep l).2, false)]

/-- Every line with a separator behind it. -/
def unlines (lines : List (List α)) : List α := lines.flatMap (· ++ [sep])

variable {sep}

theorem flagged_nil : flagged sep [] = [] := rfl

theorem flagged_line (hs : sep ∉ s) : flagged sep (s ++ sep :: t) = (s, true) :: flagged sep t := by
  unfold flagged
  rw [cut_line hs, List.map_cons, List.dropLast_concat, List.cons_append]

theorem flagged_of_not_mem (hs : sep ∉ s) (hne : s ≠ []) : flagged sep s = [(s, false)] := by
  have hrest : s.isEmpty = false := List.isEmpty_eq_false_iff.mpr hne
  unfold flagged
  rw [cut_of_not_mem hs]
  dsimp only
  rw [hrest]
  rfl

omit [DecidableEq α] in
theorem unlines_cons (line : List α) (lines : List (List α)) :
    unlines sep (line :: lines) = line ++ sep :: unlines sep lines := by
  rw [unlines, List.flatMap_cons, List.append_assoc]
  rfl

theorem flagged_unlines {lines : List (List α)} (hlines : ∀ line ∈ lines, sep ∉ line) (t : List α) :
    flagged sep (unlines sep lines ++ t) = lines.map (·, true) ++ flagged sep t := by
  induction lines with
  | nil => rfl
  | cons line lines ih =>
    obtain ⟨hline, hrest⟩ := List.forall_mem_cons.mp hlines
    rw [unlines_cons, List.append_assoc, List.cons_append, flagged_line hline, ih hrest]
    rfl

omit [DecidableEq α] in
/-- A text is its complete lines and the rest. -/
theorem exists_unlines (sep : α) (l : List α) :
    ∃ lines rest, l = unlines sep lines ++ rest ∧ (∀ line ∈ lines, sep ∉ line) ∧ sep ∉ rest := by
  induction hn : l.length using Nat.strong_induction_on generalizing l with
  | _ n ih =>
    rcases exists_line_or_not_mem sep l with hl | ⟨s, t, rfl, hs⟩
    · exact ⟨[], l, rfl, List.forall_mem_nil _, hl⟩
    · rw [List.length_append, List.length_cons] at hn
      obtain ⟨lines, rest, rfl, hlines, hrest⟩ := ih _ (by omega) t rfl
      refine ⟨s :: lines, rest, ?_, List.forall_mem_cons.mpr ⟨hs, hlines⟩, hrest⟩
      rw [unlines_cons, List.append_assoc, List.cons_append]

/-- No line has a separator in it. -/
theorem not_mem_of_mem_flagged {line : List α × Bool} (h : line ∈ flagged sep l) :
    sep ∉ line.1 := by
  obtain ⟨lines, rest, rfl, hlines, hrest⟩ := exists_unlines sep l
  rw [flagged_unlines hlines] at h
  rcases List.mem_append.mp h with hmem | hmem
  · obtain ⟨text, htext, rfl⟩ := List.mem_map.mp hmem
    exact hlines text htext
  · rcases eq_or_ne rest [] with rfl | hne
    · exact absurd hmem List.not_mem_nil
    · rw [flagged_of_not_mem hrest hne] at hmem
      rw [List.mem_singleton.mp hmem]
      exact hrest

/-- Lines without separators are what their text is cut into. -/
theorem unlines_inj {lines lines' : List (List α)} (hlines : ∀ line ∈ lines, sep ∉ line)
    (hlines' : ∀ line ∈ lines', sep ∉ line) (h : unlines sep lines = unlines sep lines') :
    lines = lines' := by
  have hflagged := flagged_unlines hlines []
  rw [h, flagged_unlines hlines' [], flagged_nil, List.append_nil, List.append_nil] at hflagged
  refine List.map_injective_iff.mpr (fun s t hst ↦ ?_) hflagged.symm
  exact congrArg Prod.fst hst

/-! ### Joined lines -/

omit [DecidableEq α] in
theorem intercalate_append {lines lines' : List (List α)} (h : lines ≠ []) (h' : lines' ≠ []) :
    [sep].intercalate (lines ++ lines') =
      [sep].intercalate lines ++ sep :: [sep].intercalate lines' := by
  induction lines with
  | nil => exact absurd rfl h
  | cons line lines ih =>
    rcases eq_or_ne lines [] with rfl | hne
    · rw [List.singleton_append, List.intercalate_cons_of_ne_nil h', List.intercalate_singleton,
        List.append_assoc]
      rfl
    · have hne' : lines ++ lines' ≠ [] := List.append_ne_nil_of_left_ne_nil hne _
      rw [List.cons_append, List.intercalate_cons_of_ne_nil hne',
        List.intercalate_cons_of_ne_nil hne, ih hne]
      simp only [List.append_assoc]

end LineStream
