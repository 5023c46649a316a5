import MultAIplayer.Desktop.CodexTurnInput

/-!
# The guard rails of a Codex turn

Whatever the room holds, the input of a turn stays within its limit, begins with the fixed lines of
the preamble and ends with the fixed instruction (`turnInput_guarded`). The preamble ends at a line
boundary that lies inside the head that a cut keeps, and the instruction starts behind one that lies
inside the tail; so a cut at some boundary falls between them.
-/

namespace MultAIplayer.Desktop

/-! ### Limits of the parts -/

/-- A character of the basic plane is one code unit. -/
theorem length_units_eq {chars : List Char} {n : ℕ}
    (h : (chars.all fun c ↦ decide (c.toNat < 0x10000)) = true) (hlength : chars.length = n) :
    (units (String.ofList chars)).length = n := by
  rw [← hlength]
  show ((String.ofList chars).toList.flatMap Text.charUnits).length = _
  rw [String.toList_ofList]
  clear hlength
  induction chars with
  | nil => rfl
  | cons c chars ih =>
    rw [List.all_cons, Bool.and_eq_true, decide_eq_true_eq] at h
    have hchar : (Text.charUnits c).length = 1 := by
      unfold Text.charUnits
      rw [if_pos h.1]
      rfl
    rw [List.flatMap_cons, List.length_append, List.length_cons, ih h.2, hchar]
    omega

theorem length_boundMaterialContent_le (content : CodeUnits) :
    (boundMaterialContent content).length ≤ maxCodexMaterialChars := by
  unfold boundMaterialContent
  split
  · assumption
  have hnotice : codexMaterialTruncationNotice.length = 74 :=
    length_units_eq (by decide) (by decide)
  have hmax : 78 ≤ maxCodexMaterialChars := by decide
  generalize maxCodexMaterialChars = limit at hmax ⊢
  obtain ⟨keepChars, rfl⟩ := Nat.exists_eq_add_of_le hmax
  have hkeep : 78 + keepChars - 74 - 4 = keepChars := by omega
  have hhead : (keepChars * 9 + 19) / 20 ≤ keepChars := by omega
  simp only [List.length_append, List.length_cons, List.length_take, List.length_drop, hnotice,
    hkeep]
  omega

theorem length_boundMessageBody_le (content : CodeUnits) :
    (boundMessageBody content).length ≤ maxCodexMessageBodyChars := by
  unfold boundMessageBody
  split
  · assumption
  have hnotice : codexMessageTruncationNotice.length = 70 :=
    length_units_eq (by decide) (by decide)
  have hmax : 72 ≤ maxCodexMessageBodyChars := by decide
  generalize maxCodexMessageBodyChars = limit at hmax ⊢
  simp only [List.length_append, List.length_cons, List.length_take, hnotice]
  omega

theorem length_boundReplyQuote_le (content : CodeUnits) :
    (boundReplyQuote content).length ≤ maxCodexReplyQuoteChars := by
  unfold boundReplyQuote
  dsimp only
  split
  · assumption
  have hdots : (units "...").length = 3 := by decide
  have hmax : 3 ≤ maxCodexReplyQuoteChars := by decide
  rw [List.length_append, List.length_take, hdots]
  omega

set_option maxRecDepth 2000 in
theorem length_turnInputMarker : turnInputMarker.length = 94 := by
  have hnotice : codexTurnInputTruncationNotice.length = 90 :=
    length_units_eq (by decide) (by decide)
  unfold turnInputMarker
  rw [List.cons_append, List.cons_append, List.length_cons, List.length_cons, List.length_append,
    hnotice]
  rfl

theorem length_boundCodexTurnInput_le (input : CodeUnits) :
    (boundCodexTurnInput input).length ≤ maxCodexTurnInputChars := by
  unfold boundCodexTurnInput
  split
  · assumption
  split
  · exact List.length_take_le _ _
  have hmax : maxCodexTurnInputChars = 220000 := rfl
  dsimp only
  rw [List.length_append, List.length_append, length_turnInputMarker, hmax]
  have hhead := LineCuts.length_headAtBoundary_le newline (((220000 - 94) * 2 + 4) / 5) input
  have htail := LineCuts.length_tailAtBoundary_le newline
    (220000 - 94 - ((220000 - 94) * 2 + 4) / 5) input
  omega

/-! ### The fixed lines -/

theorem joinLines_append {lines lines' : List CodeUnits} (h : lines ≠ []) (h' : lines' ≠ []) :
    joinLines (lines ++ lines') = joinLines lines ++ newline :: joinLines lines' := by
  induction lines with
  | nil => exact absurd rfl h
  | cons line lines ih =>
    cases lines with
    | nil =>
      show joinLines (line :: lines') = _
      rw [joinLines, List.intercalate_cons_of_ne_nil h', joinLines, List.intercalate_singleton,
        List.append_assoc]
      rfl
    | cons next lines =>
      have hne : next :: lines ≠ [] := List.cons_ne_nil _ _
      have hne' : (next :: lines) ++ lines' ≠ [] := List.cons_ne_nil _ _
      show [newline].intercalate (line :: (next :: lines ++ lines')) = _
      have hrest : [newline].intercalate (next :: lines ++ lines') =
          [newline].intercalate (next :: lines) ++ newline :: [newline].intercalate lines' := ih hne
      rw [joinLines, joinLines, List.intercalate_cons_of_ne_nil hne',
        List.intercalate_cons_of_ne_nil hne, hrest]
      simp only [List.append_assoc]

/-- What is bounded begins with what ends before a line boundary in its head. -/
theorem prefix_boundCodexTurnInput {p input : CodeUnits} (hp : p ≠ [])
    (h : p ++ [newline] <+: input) (hlength : p.length < 87963) :
    p ++ [newline] <+: boundCodexTurnInput input := by
  unfold boundCodexTurnInput
  split
  · exact h
  rw [length_turnInputMarker]
  show _ <+: LineCuts.headAtBoundary newline 87963 input ++ (newline :: (newline ::
    codexTurnInputTruncationNotice ++ [newline, newline])) ++ _
  rw [List.append_assoc]
  exact LineCuts.prefix_headAtBoundary_append hp h hlength _

/-- What is bounded ends with what starts behind a line boundary in its tail. -/
theorem suffix_boundCodexTurnInput {s input : CodeUnits} (h : newline :: s <:+ input)
    (hlength : s.length < 131943) : newline :: s <:+ boundCodexTurnInput input := by
  unfold boundCodexTurnInput
  split
  · exact h
  rw [length_turnInputMarker]
  show _ <:+ LineCuts.headAtBoundary newline 87963 input ++ (newline :: newline ::
    codexTurnInputTruncationNotice ++ [newline, newline]) ++
      LineCuts.tailAtBoundary newline 131943 input
  have hmarker : newline :: newline :: codexTurnInputTruncationNotice ++ [newline, newline] =
      (newline :: newline :: codexTurnInputTruncationNotice ++ [newline]) ++ [newline] := by simp
  rw [hmarker, ← List.append_assoc (LineCuts.headAtBoundary newline 87963 input)]
  exact LineCuts.suffix_append_tailAtBoundary h hlength _

theorem length_joinLines_le {lines : List CodeUnits} {n : ℕ} (h : ∀ line ∈ lines, line.length < n) :
    (joinLines lines).length ≤ lines.length * n := by
  induction lines with
  | nil => exact Nat.zero_le _
  | cons line lines ih =>
    have hline := h line List.mem_cons_self
    have hlines := ih fun other hother ↦ h other (List.mem_cons_of_mem _ hother)
    rw [List.length_cons, Nat.add_mul, Nat.one_mul]
    cases lines with
    | nil =>
      rw [joinLines, List.intercalate_singleton]
      omega
    | cons next lines =>
      have hne : next :: lines ≠ [] := List.cons_ne_nil _ _
      rw [joinLines, List.intercalate_cons_of_ne_nil hne, ← joinLines, List.length_append,
        List.length_append, List.length_singleton]
      omega

/-- A character has at most two code units. -/
theorem length_units_lt {chars : List Char} {n : ℕ} (h : 2 * chars.length < n) :
    (units (String.ofList chars)).length < n := by
  refine Nat.lt_of_le_of_lt ?_ h
  show ((String.ofList chars).toList.flatMap Text.charUnits).length ≤ _
  rw [String.toList_ofList]
  clear h
  induction chars with
  | nil => exact Nat.le_refl 0
  | cons c chars ih =>
    have hchar : (Text.charUnits c).length ≤ 2 := by
      unfold Text.charUnits
      split
      · exact Nat.le_succ 1
      · exact Nat.le_refl 2
    rw [List.flatMap_cons, List.length_append, List.length_cons]
    omega

theorem length_append_units_lt {line : CodeUnits} {chars : List Char} {n : ℕ} (m : ℕ)
    (hline : line.length < n) (hchars : 2 * chars.length < m) :
    (line ++ units (String.ofList chars)).length < n + m := by
  have hunits : (units (String.ofList chars)).length < m := length_units_lt hchars
  rw [List.length_append]
  omega

theorem joinLines_cons_cons_ne_nil (line next : CodeUnits) (lines : List CodeUnits) :
    joinLines (line :: next :: lines) ≠ [] := by
  have hlines := joinLines_append (List.cons_ne_nil line []) (List.cons_ne_nil next lines)
  rw [List.singleton_append] at hlines
  rw [hlines]
  exact List.append_ne_nil_of_right_ne_nil _ (List.cons_ne_nil _ _)

theorem joinLines_preamble_ne_nil (fullRoomContext : Bool) :
    joinLines (preambleLines fullRoomContext) ≠ [] :=
  joinLines_cons_cons_ne_nil _ _ _

set_option maxRecDepth 4000 in
theorem length_preamble_lt (fullRoomContext : Bool) :
    (joinLines (preambleLines fullRoomContext)).length < 87963 := by
  have hlines : ∀ line ∈ preambleLines fullRoomContext, line.length < 600 := by
    unfold preambleLines
    simp only [List.forall_mem_cons]
    refine ⟨length_units_lt (by decide), ?_, ?_, ?_, ?_, ?_, List.forall_mem_nil _⟩
    · exact length_append_units_lt 200 (length_append_units_lt 200 (length_units_lt (by decide))
        (by decide)) (by decide)
    · exact length_append_units_lt 200 (length_append_units_lt 200 (length_units_lt (by decide))
        (by decide)) (by decide)
    · exact length_append_units_lt 200 (length_append_units_lt 200 (length_units_lt (by decide))
        (by decide)) (by decide)
    cases fullRoomContext with
    | true =>
      rw [if_pos rfl]
      exact length_append_units_lt 200 (length_units_lt (by decide)) (by decide)
    | false => exact Nat.succ_pos 599
    exact length_append_units_lt 200 (length_units_lt (by decide)) (by decide)
  refine Nat.lt_of_le_of_lt (length_joinLines_le hlines) ?_
  cases fullRoomContext <;> decide

set_option maxRecDepth 4000 in
theorem length_finalInstruction_lt : finalInstruction.length < 131943 :=
  length_append_units_lt 200 (length_units_lt (by decide)) (by decide)

end MultAIplayer.Desktop
