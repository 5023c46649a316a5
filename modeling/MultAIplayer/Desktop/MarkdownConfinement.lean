import MultAIplayer.Desktop.MarkdownExport

/-!
# Code in the exports

Read as CommonMark, `fencedCode` is one block with its text, and `inlineCode` one span with its text
unless that is nothing but spaces: there the padding is not stripped. A document holds what it
exports exactly when no text has four line feeds in a row between its fences
(`exports_confine_iff`), for the whitespace pass of `compactMarkdown` goes over the code as well. It
brings nothing together on a line, so fences stay longer than what stands between them.

Names are escaped, but their line breaks are not: the documents are those whose names are lines.
-/

namespace MultAIplayer.Desktop.Markdown

open CommonMark (Chars backtick Block isBreak)

/-! ### Fences and spans -/

theorem le_foldl_max (l : List ℕ) (start : ℕ) :
    start ≤ l.foldl max start ∧ ∀ m ∈ l, m ≤ l.foldl max start := by
  induction l generalizing start with
  | nil => exact ⟨Nat.le_refl _, List.forall_mem_nil _⟩
  | cons n l ih =>
    obtain ⟨hstart, hall⟩ := ih (max start n)
    exact ⟨(Nat.le_max_left _ _).trans hstart, List.forall_mem_cons.mpr
      ⟨(Nat.le_max_right _ _).trans hstart, hall⟩⟩

theorem start_le_longestRun (least start : ℕ) (value : Chars) :
    start ≤ longestRun least start value := (le_foldl_max _ _).1

/-- No run is longer than the longest one, when those that are not counted are not longer than the
start. -/
theorem run_le_longestRun {least start : ℕ} (hleast : least ≤ start + 1) {value : Chars} {m : ℕ}
    (hm : m ∈ CommonMark.backtickRuns 0 value) : m ≤ longestRun least start value := by
  rcases Nat.lt_or_ge m least with hlt | hge
  · exact (show m ≤ start by omega).trans (start_le_longestRun _ _ _)
  · exact (le_foldl_max _ _).2 m (List.mem_filter.mpr ⟨hm, decide_eq_true hge⟩)

theorem infix_le_longestRun {value : Chars} {k : ℕ}
    (h : List.replicate k backtick <:+: value) : k ≤ longestRun 3 2 value := by
  rcases Nat.eq_zero_or_pos k with rfl | hpos
  · exact Nat.zero_le _
  · obtain ⟨m, hm, hle⟩ := CommonMark.exists_run hpos value (k := 0) h
    exact hle.trans (run_le_longestRun (by decide) hm)

theorem joinLines_append {parts parts' : List Chars} (h : parts ≠ []) (h' : parts' ≠ []) :
    joinLines (parts ++ parts') = joinLines parts ++ '\n' :: joinLines parts' :=
  LineStream.intercalate_append h h'

theorem joinLines_cons {parts : List Chars} (part : Chars) (h : parts ≠ []) :
    joinLines (part :: parts) = part ++ '\n' :: joinLines parts :=
  (joinLines_append (List.cons_ne_nil part []) h).trans
    (congrArg (· ++ _) List.intercalate_singleton)

theorem fencedCode_eq (value language : Chars) :
    fencedCode value language = List.replicate (longestRun 3 2 value + 1) backtick ++ language ++
      '\n' :: (value ++ '\n' :: List.replicate (longestRun 3 2 value + 1) backtick) := by
  unfold fencedCode
  rw [joinLines_cons _ (List.cons_ne_nil _ _), joinLines_cons _ (List.cons_ne_nil _ _), joinLines,
    List.intercalate_singleton]

/-- An info string as it is written. -/
def IsInfo (language : Chars) : Prop :=
  ∀ c ∈ language, c ≠ backtick ∧ CommonMark.isBlank c = false ∧ isBreak c = false

theorem isInfo_of_all {language : Chars}
    (h : language.all (fun c ↦ c != backtick && !CommonMark.isBlank c && !isBreak c) = true) :
    IsInfo language := by
  intro c hc
  have hinfo := List.all_eq_true.mp h c hc
  rw [Bool.and_eq_true, Bool.and_eq_true, bne_iff_ne, Bool.not_eq_true', Bool.not_eq_true'] at hinfo
  exact ⟨hinfo.1.1, hinfo.1.2, hinfo.2⟩

theorem fence_no_break (n : ℕ) : ∀ c ∈ List.replicate n backtick, ¬ isBreak c = true := by
  intro c hc
  rw [List.eq_of_mem_replicate hc]
  decide

/-- **`fencedCode` is one block.** -/
theorem read_fencedCode {language : Chars} (hlanguage : IsInfo language) (value : Chars) :
    CommonMark.read (fencedCode value language) = some [.code language (value ++ ['\n'])] := by
  have hle := start_le_longestRun 3 2 value
  have hlast : CommonMark.lines (List.replicate (longestRun 3 2 value + 1) backtick ++ []) =
      [(List.replicate (longestRun 3 2 value + 1) backtick, [])] := by
    rw [List.append_nil]
    exact CommonMark.lines_last (fence_no_break _) (List.cons_ne_nil _ _)
  have hread := CommonMark.readBlocks_fenced hlanguage (n := longestRun 3 2 value + 1) (by omega)
    (fun k hk ↦ Nat.lt_succ_of_le (infix_le_longestRun hk)) hlast
  rw [List.append_nil] at hread
  rw [fencedCode_eq]
  exact hread

/-! ### Code spans -/

theorem spaceBreaks_of_no_break {value : Chars} (h : ∀ c ∈ value, ¬ isBreak c = true) :
    spaceBreaks value = value := by
  induction value with
  | nil => rfl
  | cons c value ih =>
    obtain ⟨hc, hrest⟩ := List.forall_mem_cons.mp h
    rw [spaceBreaks, if_neg hc, ih hrest]
    rintro rest rfl
    exact absurd rfl hc

/-- **When `inlineCode` is a span.** -/
theorem readSpan_inlineCode_iff {value : Chars} (hne : value ≠ [])
    (hbreak : ∀ c ∈ value, ¬ isBreak c = true) :
    CommonMark.readSpan (inlineCode value) = some (value, []) ↔ ∃ c ∈ value, c ≠ ' ' := by
  have hspace : ' ' ≠ backtick := by decide
  have hruns : ∀ m ∈ CommonMark.backtickRuns 0 value, m ≠ longestRun 1 0 value + 1 := by
    intro m hm
    have hle : m ≤ longestRun 1 0 value := run_le_longestRun (by decide) hm
    omega
  have hall : value.all (fun c ↦ decide (c = ' ')) = true ↔ ¬ ∃ c ∈ value, c ≠ ' ' := by
    rw [List.all_eq_true, not_exists]
    exact forall_congr' fun c ↦ (imp_congr_right fun _ ↦ decide_eq_true_iff).trans
      not_and_not_right.symm
  unfold inlineCode
  rw [spaceBreaks_of_no_break hbreak]
  dsimp only
  split
  · next hpad =>
    have hpadded : ' ' :: value ++ [' '] ≠ [] := List.cons_ne_nil _ _
    rw [CommonMark.readSpan_fenced (Nat.succ_pos _) hpadded]
    · have hlast : (' ' :: value ++ [' ']).getLast? = some ' ' := List.getLast?_concat
      have hpaddedAll : (' ' :: value ++ [' ']).all (fun c ↦ decide (c = ' ')) =
          value.all (fun c ↦ decide (c = ' ')) := by
        rw [List.all_append, List.all_cons]
        exact (Bool.and_true _).trans (Bool.true_and _)
      rw [CommonMark.stripSpaces, hlast, hpaddedAll]
      split
      · next h =>
        refine ⟨fun _ ↦ not_not.mp (hall.not.mp h.2.2), fun _ ↦ ?_⟩
        show some ((value ++ [' ']).dropLast, []) = _
        rw [List.dropLast_concat]
      · next h =>
        refine ⟨fun heq ↦ ?_, fun hex ↦ absurd ⟨rfl, rfl, hall.not.mpr (not_not.mpr hex)⟩ h⟩
        have hlength := congrArg List.length (congrArg Prod.fst (Option.some.inj heq))
        rw [List.length_append, List.length_cons] at hlength
        exact absurd hlength (by dsimp only; omega)
    · intro m hm
      rw [CommonMark.backtickRuns_concat hspace] at hm
      exact hruns m hm
    · exact fun h ↦ hspace (Option.some.inj h)
    · rw [List.getLast?_concat]
      exact fun h ↦ hspace (Option.some.inj h)
  · next hplain =>
    rw [not_or, not_or, not_or] at hplain
    obtain ⟨hhead, hlast, hstart, -⟩ := hplain
    rw [CommonMark.readSpan_fenced (Nat.succ_pos _) hne hruns hhead hlast, CommonMark.stripSpaces,
      if_neg fun h ↦ hstart h.1]
    refine ⟨fun _ ↦ ?_, fun _ ↦ rfl⟩
    obtain ⟨c, value, rfl⟩ := List.exists_cons_of_ne_nil hne
    exact ⟨c, List.mem_cons_self, fun h ↦ hstart (congrArg some h)⟩

/-! ### The whitespace pass -/

section

variable {n : ℕ} {text s t : Chars} {c : Char}

theorem cutFeeds_cons (hc : c ≠ '\n') (n : ℕ) (text : Chars) :
    cutFeeds n (c :: text) = c :: cutFeeds 0 text := if_neg hc

theorem cutFeeds_feed (hn : n < 3) (text : Chars) :
    cutFeeds n ('\n' :: text) = '\n' :: cutFeeds (n + 1) text := (if_pos rfl).trans (if_pos hn)

theorem cutFeeds_full (text : Chars) : cutFeeds 3 ('\n' :: text) = cutFeeds 3 text :=
  (if_pos rfl).trans (if_neg (by decide))

/-- A character that is no line feed ends a run. -/
theorem cutFeeds_append (hc : c ≠ '\n') (n : ℕ) (s t : Chars) :
    cutFeeds n (s ++ c :: t) = cutFeeds n s ++ c :: cutFeeds 0 t := by
  induction s generalizing n with
  | nil => exact cutFeeds_cons hc n t
  | cons d s ih =>
    rw [List.cons_append, cutFeeds, cutFeeds]
    split
    · split
      · rw [ih]
        rfl
      · exact ih n
    · rw [ih]
      rfl

theorem cutFeeds_line (hs : '\n' ∉ s) (hne : s ≠ []) (n : ℕ) (t : Chars) :
    cutFeeds n (s ++ t) = s ++ cutFeeds 0 t := by
  induction s generalizing n with
  | nil => exact absurd rfl hne
  | cons d s ih =>
    rw [List.mem_cons, not_or] at hs
    rw [List.cons_append, cutFeeds_cons (Ne.symm hs.1)]
    rcases eq_or_ne s [] with rfl | hne'
    · rfl
    · rw [ih hs.2 hne']
      rfl

theorem length_cutFeeds (n : ℕ) (text : Chars) : (cutFeeds n text).length ≤ text.length := by
  induction text generalizing n with
  | nil => exact Nat.le_refl _
  | cons c text ih =>
    rw [cutFeeds]
    split
    · split
      · exact Nat.succ_le_succ (ih _)
      · exact (ih _).trans (Nat.le_succ _)
    · exact Nat.succ_le_succ (ih _)

def fourFeeds : Chars := List.replicate 4 '\n'

/-- **What the pass leaves alone** are texts without four line feeds in a row. -/
theorem cutFeeds_eq_self_iff (hn : n ≤ 3) :
    cutFeeds n text = text ↔ ¬ fourFeeds <:+: List.replicate n '\n' ++ text := by
  induction text generalizing n with
  | nil =>
    refine iff_of_true rfl fun h ↦ ?_
    have hle := h.length_le
    rw [List.append_nil, List.length_replicate] at hle
    exact absurd (hle.trans hn) (by decide)
  | cons c text ih =>
    by_cases hc : c = '\n'
    · subst hc
      rw [CommonMark.replicate_append_cons]
      rcases Nat.lt_or_ge n 3 with hlt | hge
      · rw [cutFeeds_feed hlt, List.cons_inj_right]
        exact ih hlt
      · obtain rfl : n = 3 := Nat.le_antisymm hn hge
        rw [cutFeeds_full]
        refine iff_of_false (fun h ↦ ?_) (not_not.mpr (List.prefix_append _ _).isInfix)
        have hle := length_cutFeeds 3 text
        rw [h, List.length_cons] at hle
        omega
    · rw [cutFeeds_cons hc, List.cons_inj_right]
      refine (ih (Nat.zero_le 3)).trans (not_congr ⟨fun h ↦ ?_, fun h ↦ ?_⟩)
      · exact h.trans ((List.suffix_cons _ _).trans (List.suffix_append _ _)).isInfix
      · rcases CommonMark.infix_of_not_mem (fun hmem ↦ hc (List.eq_of_mem_replicate hmem)) h with
          hleft | hright
        · have hle := hleft.length_le
          rw [List.length_replicate, List.length_replicate] at hle
          exact absurd (hle.trans hn) (by decide)
        · exact hright

theorem prefix_cutFeeds {w : Chars} (hw : '\n' ∉ w) (h : w <+: cutFeeds 0 text) : w <+: text := by
  induction text generalizing w with
  | nil => exact h
  | cons c text ih =>
    rcases w with _ | ⟨d, w⟩
    · exact List.nil_prefix
    rw [List.mem_cons, not_or] at hw
    by_cases hc : c = '\n'
    · subst hc
      rw [cutFeeds_feed (by decide)] at h
      exact absurd (List.cons_prefix_cons.mp h).1.symm hw.1
    · rw [cutFeeds_cons hc] at h
      obtain ⟨hd, hrest⟩ := List.cons_prefix_cons.mp h
      exact List.cons_prefix_cons.mpr ⟨hd, ih hw.2 hrest⟩

/-- The pass brings nothing together on a line. -/
theorem infix_cutFeeds {w : Chars} (hw : '\n' ∉ w) (hne : w ≠ []) (n : ℕ) (text : Chars)
    (h : w <:+: cutFeeds n text) : w <:+: text := by
  induction text generalizing n with
  | nil => exact h
  | cons c text ih =>
    have hcons := (List.suffix_cons c text).isInfix
    by_cases hc : c = '\n'
    · subst hc
      rw [cutFeeds, if_pos rfl] at h
      split at h
      · rcases CommonMark.infix_of_not_mem (a := []) hw h with hleft | hright
        · exact absurd (List.infix_nil.mp hleft) hne
        · exact (ih _ hright).trans hcons
      · exact (ih _ h).trans hcons
    · rw [cutFeeds_cons hc] at h
      rcases List.infix_cons_iff.mp h with hprefix | hinfix
      · rw [← cutFeeds_cons hc 0] at hprefix
        exact (prefix_cutFeeds hw hprefix).isInfix
      · exact (ih _ hinfix).trans hcons

/-- A last line feed is left, unless three stand before it. -/
theorem cutFeeds_concat (hn : n ≤ 3) (text : Chars) :
    (cutFeeds n (text ++ ['\n']) = [] ∧ n = 3) ∨
      ∃ s, cutFeeds n (text ++ ['\n']) = s ++ ['\n'] := by
  induction text generalizing n with
  | nil =>
    rcases Nat.lt_or_ge n 3 with hlt | hge
    · exact Or.inr ⟨[], cutFeeds_feed hlt []⟩
    · obtain rfl : n = 3 := Nat.le_antisymm hn hge
      exact Or.inl ⟨rfl, rfl⟩
  | cons c text ih =>
    by_cases hc : c = '\n'
    · subst hc
      rw [List.cons_append]
      rcases Nat.lt_or_ge n 3 with hlt | hge
      · rw [cutFeeds_feed hlt]
        rcases ih hlt with ⟨hnil, -⟩ | ⟨s, hs⟩
        · rw [hnil]
          exact Or.inr ⟨[], rfl⟩
        · rw [hs]
          exact Or.inr ⟨'\n' :: s, rfl⟩
      · obtain rfl : n = 3 := Nat.le_antisymm hn hge
        rw [cutFeeds_full]
        exact ih hn
    · rw [List.cons_append, cutFeeds_cons hc]
      rcases ih (Nat.zero_le 3) with ⟨-, h⟩ | ⟨s, hs⟩
      · cases h
      · rw [hs]
        exact Or.inr ⟨c :: s, rfl⟩

/-- A text between fences, as the pass leaves it. -/
def cutText (text : Chars) : Chars := (cutFeeds 1 (text ++ ['\n'])).dropLast

theorem cutFeeds_text (text : Chars) :
    cutFeeds 0 ('\n' :: (text ++ ['\n'])) = '\n' :: (cutText text ++ ['\n']) := by
  rw [cutFeeds_feed (by decide), cutText]
  rcases cutFeeds_concat (n := 1) (by decide) text with ⟨-, h⟩ | ⟨s, hs⟩
  · cases h
  · rw [hs, List.dropLast_concat]

/-- Between its fences, the text has no four line feeds in a row. -/
def KeepsBlankLines (text : Chars) : Prop := ¬ fourFeeds <:+: '\n' :: (text ++ ['\n'])

theorem cutText_eq_self_iff : cutText text = text ↔ KeepsBlankLines text := by
  have hself : cutFeeds 0 ('\n' :: (text ++ ['\n'])) = '\n' :: (text ++ ['\n']) ↔
      cutText text = text := by
    rw [cutFeeds_text, List.cons_inj_right]
    exact List.append_left_inj ['\n']
  exact hself.symm.trans (cutFeeds_eq_self_iff (Nat.zero_le 3))

theorem run_le_of_cutText {k : ℕ} (h : List.replicate k backtick <:+: cutText text) :
    k ≤ longestRun 3 2 text := by
  rcases Nat.eq_zero_or_pos k with rfl | hpos
  · exact Nat.zero_le _
  have hfeed : '\n' ∉ List.replicate k backtick := fun hmem ↦
    absurd (List.eq_of_mem_replicate hmem) (by decide)
  have hne : List.replicate k backtick ≠ [] := fun hnil ↦ by
    rw [List.replicate_eq_nil_iff] at hnil
    omega
  have hcut : cutText text <:+: cutFeeds 1 (text ++ ['\n']) := (List.dropLast_prefix _).isInfix
  have hinfix := infix_cutFeeds hfeed hne 1 _ (h.trans hcut)
  rcases CommonMark.infix_of_not_mem (b := []) hfeed hinfix with hleft | hright
  · exact infix_le_longestRun hleft
  · exact absurd (List.infix_nil.mp hright) hne

end

/-! ### Reading a document -/

/-- A part of a document: a line, or a text in fences. -/
inductive Part where
  | line (text : Chars)
  | code (language text : Chars)

namespace Part

@[grind =] def render : Part → Chars
  | line text => text
  | code language text => fencedCode text language

/-- A line that stays one and opens nothing; a text with an info string. -/
def IsPlain : Part → Prop
  | line text => (∀ c ∈ text, ¬ isBreak c = true) ∧ CommonMark.standsAlone text = true
  | code language _ => IsInfo language

/-- The texts in fences. -/
def texts (parts : List Part) : List (Chars × Chars) :=
  parts.filterMap fun
    | line _ => none
    | code language text => some (language, text)

end Part

theorem opensFence_of_standsAlone {line : Chars} (h : CommonMark.standsAlone line = true) :
    CommonMark.opensFence line = none := by
  unfold CommonMark.opensFence
  rcases line with _ | ⟨c, line⟩
  · rfl
  refine if_neg fun hopens ↦ ?_
  have hblank : CommonMark.isBlank c = false ∧ ¬ (!CommonMark.isBlank c && c ≠ backtick &&
      c ≠ '~' && c ≠ '<') = true := by
    rcases hopens.1 with rfl | rfl <;> decide
  unfold CommonMark.standsAlone at h
  rw [List.all_cons, hblank.1, Bool.false_and, Bool.false_or] at h
  exact hblank.2 h

theorem readBlocks_line {line : Chars} (h : CommonMark.standsAlone line = true) (ending : Chars)
    (rest : List CommonMark.Line) : CommonMark.readBlocks none ((line, ending) :: rest) =
      (CommonMark.readBlocks none rest).map (Block.line line :: ·) := by
  rw [CommonMark.readBlocks, opensFence_of_standsAlone h]
  exact if_pos h

section

variable {language : Chars} (hlanguage : IsInfo language) (text : Chars)

include hlanguage

theorem cutFeeds_fencedCode (n : ℕ) (tail : Chars) :
    cutFeeds n (fencedCode text language ++ tail) =
      List.replicate (longestRun 3 2 text + 1) backtick ++ language ++ '\n' :: (cutText text ++
        '\n' :: (List.replicate (longestRun 3 2 text + 1) backtick ++ cutFeeds 0 tail)) := by
  have hle := start_le_longestRun 3 2 text
  rw [fencedCode_eq]
  generalize longestRun 3 2 text = m at hle
  have hfence : '\n' ∉ List.replicate m backtick := fun hmem ↦
    absurd (List.eq_of_mem_replicate hmem) (by decide)
  have hfences : '\n' ∉ List.replicate (m + 1) backtick ++ language := fun hmem ↦
    (List.mem_append.mp hmem).elim (fun h ↦ absurd (List.eq_of_mem_replicate h) (by decide))
      fun h ↦ absurd (hlanguage _ h).2.2 (by decide)
  have hne : List.replicate m backtick ≠ [] := fun hnil ↦ by
    rw [List.replicate_eq_nil_iff] at hnil
    omega
  have hsplit : List.replicate (m + 1) backtick ++ language ++
      '\n' :: (text ++ '\n' :: List.replicate (m + 1) backtick) ++ tail =
        List.replicate (m + 1) backtick ++ language ++
          ('\n' :: (text ++ ['\n']) ++ backtick :: (List.replicate m backtick ++ tail)) := by
    rw [List.replicate_succ]
    simp only [List.append_assoc, List.cons_append, List.nil_append]
  rw [hsplit, cutFeeds_line hfences (List.cons_ne_nil _ _), cutFeeds_append (by decide),
    cutFeeds_text, cutFeeds_line hfence hne, List.replicate_succ]
  simp only [List.append_assoc, List.cons_append, List.nil_append]

/-- A text in fences is read as one block, whatever follows. -/
theorem readBlocks_fencedCode (n : ℕ) {tail ending : Chars} {after : List CommonMark.Line}
    (htail : CommonMark.lines (List.replicate (longestRun 3 2 text + 1) backtick ++
      cutFeeds 0 tail) = (List.replicate (longestRun 3 2 text + 1) backtick, ending) :: after) :
    CommonMark.read (cutFeeds n (fencedCode text language ++ tail)) =
      (CommonMark.readBlocks none after).map
        (Block.code language (cutText text ++ ['\n']) :: ·) := by
  have hle := start_le_longestRun 3 2 text
  rw [CommonMark.read, cutFeeds_fencedCode hlanguage]
  exact CommonMark.readBlocks_fenced hlanguage (by omega)
    (fun k hk ↦ Nat.lt_succ_of_le (run_le_of_cutText hk)) htail

end

/-- **The code of a document.** Its blocks are the texts in fences, as the whitespace pass leaves
them. -/
theorem read_parts {parts : List Part} (hplain : ∀ part ∈ parts, part.IsPlain) (n : ℕ) :
    ∃ blocks, CommonMark.read (cutFeeds n (joinLines (parts.map Part.render))) = some blocks ∧
      CommonMark.codeBlocks blocks =
        (Part.texts parts).map fun text ↦ (text.1, cutText text.2 ++ ['\n']) := by
  induction parts generalizing n with
  | nil => exact ⟨[], rfl, rfl⟩
  | cons part parts ih =>
    obtain ⟨hpart, hrest⟩ := List.forall_mem_cons.mp hplain
    rw [List.map_cons]
    rcases eq_or_ne parts [] with rfl | hne
    · rw [List.map_nil, joinLines, List.intercalate_singleton]
      rcases part with line | ⟨language, text⟩
      · obtain ⟨hbreak, halone⟩ := hpart
        have hfeed : '\n' ∉ line := fun hmem ↦ hbreak _ hmem rfl
        show ∃ blocks, CommonMark.read (cutFeeds n line) = some blocks ∧ _
        rcases eq_or_ne line [] with rfl | hline
        · exact ⟨[], rfl, rfl⟩
        · have hcut := cutFeeds_line hfeed hline n []
          rw [List.append_nil, show cutFeeds 0 [] = [] from rfl, List.append_nil] at hcut
          refine ⟨[.line line], ?_, rfl⟩
          rw [hcut, CommonMark.read, CommonMark.lines_last hbreak hline, readBlocks_line halone]
          rfl
      · have hlast : CommonMark.lines (List.replicate (longestRun 3 2 text + 1) backtick ++
            cutFeeds 0 []) = [(List.replicate (longestRun 3 2 text + 1) backtick, [])] := by
          rw [show cutFeeds 0 [] = [] from rfl, List.append_nil]
          exact CommonMark.lines_last (fence_no_break _) (List.cons_ne_nil _ _)
        have hread := readBlocks_fencedCode hpart text n hlast
        rw [List.append_nil] at hread
        exact ⟨_, hread, rfl⟩
    · rw [joinLines_cons _ fun h ↦ hne (List.map_eq_nil_iff.mp h)]
      rcases part with line | ⟨language, text⟩
      · obtain ⟨hbreak, halone⟩ := hpart
        have hfeed : '\n' ∉ line := fun hmem ↦ hbreak _ hmem rfl
        show ∃ blocks, CommonMark.read (cutFeeds n (line ++ '\n' :: _)) = some blocks ∧ _
        have hnext : ∀ m, ∃ blocks, CommonMark.read (line ++ '\n' ::
            cutFeeds m (joinLines (parts.map Part.render))) = some blocks ∧
              CommonMark.codeBlocks blocks = (Part.texts (.line line :: parts)).map fun text ↦
                (text.1, cutText text.2 ++ ['\n']) := by
          intro m
          obtain ⟨blocks, hread, hcode⟩ := ih hrest m
          refine ⟨.line line :: blocks, ?_, hcode⟩
          rw [CommonMark.read] at hread
          rw [CommonMark.read, CommonMark.lines_line hbreak, readBlocks_line halone, hread]
          rfl
        rcases eq_or_ne line [] with rfl | hline
        · rw [List.nil_append, cutFeeds, if_pos rfl]
          split
          · exact hnext (n + 1)
          · exact ih hrest n
        · rw [cutFeeds_line hfeed hline, cutFeeds_feed (by decide)]
          exact hnext 1
      · obtain ⟨blocks, hread, hcode⟩ := ih hrest 1
        have htail : CommonMark.lines (List.replicate (longestRun 3 2 text + 1) backtick ++
            cutFeeds 0 ('\n' :: joinLines (parts.map Part.render))) =
              (List.replicate (longestRun 3 2 text + 1) backtick, ['\n']) ::
                CommonMark.lines (cutFeeds 1 (joinLines (parts.map Part.render))) := by
          rw [cutFeeds_feed (by decide)]
          exact CommonMark.lines_line (fence_no_break _) _
        refine ⟨.code language (cutText text ++ ['\n']) :: blocks, ?_, ?_⟩
        · refine (readBlocks_fencedCode hpart text n htail).trans ?_
          exact congrArg (Option.map _) hread
        · exact congrArg (_ :: ·) hcode

/-- A document that ends in something else than white space is not trimmed. -/
theorem compactMarkdown_eq {parts : List Chars} {c : Char}
    (hlast : (joinLines parts).getLast? = some c) (hc : Text.isWhiteSpace c = false) :
    compactMarkdown parts = cutFeeds 0 (joinLines parts) := by
  have hfeed : c ≠ '\n' := by
    rintro rfl
    exact absurd hc (by decide)
  obtain ⟨init, hinit⟩ := List.getLast?_eq_some_iff.mp hlast
  have hcut : cutFeeds 0 (joinLines parts) = cutFeeds 0 init ++ [c] := by
    rw [hinit]
    exact cutFeeds_append hfeed 0 init []
  rw [compactMarkdown, trimEnd, hcut]
  exact List.rdropWhile_concat_neg _ _ _ (Bool.eq_false_iff.mp hc)

theorem getLast?_joinLines {parts : List Chars} {last : Chars} (hne : last ≠ []) :
    (joinLines (parts ++ [last])).getLast? = last.getLast? := by
  have hsingle : joinLines [last] = last := List.intercalate_singleton
  rcases eq_or_ne parts [] with rfl | hparts
  · exact congrArg List.getLast? hsingle
  · rw [joinLines_append hparts (List.cons_ne_nil _ _), hsingle]
    refine (List.getLast?_append_of_ne_nil _ (List.cons_ne_nil _ _)).trans ?_
    obtain ⟨c, last, rfl⟩ := List.exists_cons_of_ne_nil hne
    exact List.getLast?_cons_cons

/-- The exported texts are the contents of the code blocks. -/
def Holds (document : Chars) (texts : List (Chars × Chars)) : Prop :=
  ∃ blocks, CommonMark.read document = some blocks ∧
    CommonMark.codeBlocks blocks = texts.map fun text ↦ (text.1, text.2 ++ ['\n'])

/-- **When a document holds its texts.** -/
theorem holds_parts_iff {parts : List Part} {last : Part} {c : Char}
    (hplain : ∀ part ∈ parts ++ [last], part.IsPlain) (hlast : last.render.getLast? = some c)
    (hc : Text.isWhiteSpace c = false) :
    Holds (compactMarkdown ((parts ++ [last]).map Part.render)) (Part.texts (parts ++ [last])) ↔
      ∀ text ∈ Part.texts (parts ++ [last]), KeepsBlankLines text.2 := by
  have hne : last.render ≠ [] := fun hnil ↦ by
    rw [hnil] at hlast
    cases hlast
  have hend : (joinLines ((parts ++ [last]).map Part.render)).getLast? = some c := by
    rw [List.map_append, List.map_singleton, getLast?_joinLines hne, hlast]
  obtain ⟨blocks, hread, hcode⟩ := read_parts hplain 0
  rw [Holds, compactMarkdown_eq hend hc, hread]
  have hsame : (∃ blocks', some blocks = some blocks' ∧ CommonMark.codeBlocks blocks' =
      (Part.texts (parts ++ [last])).map fun text ↦ (text.1, text.2 ++ ['\n'])) ↔
        ∀ text ∈ Part.texts (parts ++ [last]), cutText text.2 = text.2 := by
    constructor
    · rintro ⟨_, hblocks, htexts⟩ text htext
      obtain rfl := Option.some.inj hblocks
      have heach := List.map_inj_left.mp (hcode.symm.trans htexts) text htext
      exact List.append_cancel_right (congrArg Prod.snd heach)
    · intro h
      refine ⟨blocks, rfl, hcode.trans (List.map_congr_left fun text htext ↦ ?_)⟩
      rw [h text htext]
  exact hsame.trans (forall₂_congr fun text _ ↦ cutText_eq_self_iff)

/-! ### Lines of a document -/

def NoBreak (text : Chars) : Prop := ∀ c ∈ text, ¬ isBreak c = true

theorem NoBreak.append {s t : Chars} (hs : NoBreak s) (ht : NoBreak t) : NoBreak (s ++ t) :=
  List.forall_mem_append.mpr ⟨hs, ht⟩

theorem noBreak_of_all {text : Chars} (h : text.all (fun c ↦ !isBreak c) = true) : NoBreak text :=
  fun c hc hbreak ↦ by
    have hno := List.all_eq_true.mp h c hc
    rw [hbreak] at hno
    cases hno

theorem NoBreak.escapeMarkdown {value : Chars} (h : NoBreak value) :
    NoBreak (escapeMarkdown value) := by
  intro c hc
  obtain ⟨d, hd, hmem⟩ := List.mem_flatMap.mp hc
  split at hmem
  · rcases List.mem_cons.mp hmem with rfl | hmem
    · decide
    · rw [List.mem_singleton.mp hmem]
      exact h d hd
  · rw [List.mem_singleton.mp hmem]
    exact h d hd

theorem noBreak_spaceBreaks (value : Chars) : NoBreak (spaceBreaks value) := by
  induction value using spaceBreaks.induct with
  | case1 => exact List.forall_mem_nil _
  | case2 value ih => exact List.forall_mem_cons.mpr ⟨by decide, ih⟩
  | case3 c value hpair ih =>
    rw [spaceBreaks]
    · refine List.forall_mem_cons.mpr ⟨?_, ih⟩
      split
      · decide
      · assumption
    · exact hpair

theorem noBreak_replicate_backtick (n : ℕ) : NoBreak (List.replicate n backtick) := fence_no_break n

theorem noBreak_inlineCode (value : Chars) : NoBreak (inlineCode value) := by
  have hspaces := noBreak_spaceBreaks value
  unfold inlineCode
  refine ((noBreak_replicate_backtick _).append ?_).append (noBreak_replicate_backtick _)
  split
  · exact NoBreak.append (List.forall_mem_cons.mpr ⟨by decide, hspaces⟩)
      (List.forall_mem_singleton.mpr (by decide))
  · exact hspaces

theorem noBreak_showNumber (n : ℕ) : NoBreak (showNumber n) := by
  rw [showNumber, Nat.toString_eq_repr, Nat.toList_repr]
  intro c hc hbreak
  have hdigit : c.isDigit = true := Nat.isDigit_of_mem_toDigits (by decide) (by decide) hc
  rcases CommonMark.break_cases hbreak with rfl | rfl <;> exact absurd hdigit (by decide)

theorem noBreak_formatBytes (bytes : ℕ) : NoBreak (formatBytes bytes) := by
  unfold formatBytes
  split
  · exact (noBreak_showNumber _).append (noBreak_of_all (by decide))
  split
  · exact (noBreak_showNumber _).append (noBreak_of_all (by decide))
  · refine NoBreak.append ((noBreak_showNumber _).append ?_) (noBreak_of_all (by decide))
    exact List.forall_mem_cons.mpr ⟨by decide, noBreak_showNumber _⟩

theorem noBreak_intercalate {sep : Chars} (hsep : NoBreak sep) {parts : List Chars}
    (h : ∀ part ∈ parts, NoBreak part) : NoBreak (sep.intercalate parts) := by
  induction parts with
  | nil => exact List.forall_mem_nil _
  | cons part parts ih =>
    obtain ⟨hpart, hrest⟩ := List.forall_mem_cons.mp h
    rcases eq_or_ne parts [] with rfl | hne
    · rw [List.intercalate_singleton]
      exact hpart
    · rw [List.intercalate_cons_of_ne_nil hne]
      exact (hpart.append hsep).append (ih hrest)

section

variable {risks : List Chars} (hrisks : ∀ risk ∈ risks, NoBreak risk)

include hrisks

theorem sensitiveWarningBlock_plain :
    ∀ line ∈ sensitiveWarningBlock risks, (Part.line line).IsPlain := by
  unfold sensitiveWarningBlock
  dsimp only
  split
  · exact List.forall_mem_nil _
  · refine List.forall_mem_cons.mpr ⟨⟨noBreak_of_all (by decide), by decide⟩,
      List.forall_mem_singleton.mpr ⟨?_, by rfl⟩⟩
    refine NoBreak.append (NoBreak.append (noBreak_of_all (by decide)) ?_)
      (noBreak_of_all (by decide))
    refine noBreak_intercalate (noBreak_of_all (by decide)) fun part hpart ↦ ?_
    obtain ⟨risk, hrisk, rfl⟩ := List.mem_map.mp hpart
    exact (hrisks risk (List.mem_eraseDups.mp (List.mem_filter.mp hrisk).1)).escapeMarkdown

end

/-- The lines of the changed files. -/
@[grind =]
def changedFileLines (suffix : ChangedFile → Chars) (files : List ChangedFile) : List Chars :=
  if files = [] then ["- No changed files reported.".toList]
  else files.map (changedFileLine suffix)

theorem joinLines_changedFileLines (suffix : ChangedFile → Chars) (files : List ChangedFile) :
    joinLines (changedFileLines suffix files) = changedFilesPart suffix files := by
  unfold changedFileLines changedFilesPart
  dsimp only
  split
  · next hnil =>
    rw [hnil]
    exact List.intercalate_singleton
  · next hne =>
    obtain ⟨file, files, rfl⟩ := List.exists_cons_of_ne_nil hne
    rw [List.map_cons]
    refine (if_neg fun h ↦ ?_).symm
    rcases eq_or_ne (files.map (changedFileLine suffix)) [] with hrest | hrest
    · rw [hrest, joinLines, List.intercalate_singleton] at h
      exact Bool.false_ne_true h
    · rw [joinLines_cons _ hrest] at h
      exact Bool.false_ne_true h

theorem changedFileLines_ne_nil (suffix : ChangedFile → Chars) (files : List ChangedFile) :
    changedFileLines suffix files ≠ [] := by
  unfold changedFileLines
  split
  · exact List.cons_ne_nil _ _
  · next hne => exact fun h ↦ hne (List.map_eq_nil_iff.mp h)

theorem changedFileLines_plain {suffix : ChangedFile → Chars} {files : List ChangedFile}
    (hsuffix : ∀ file ∈ files, NoBreak (suffix file)) :
    ∀ line ∈ changedFileLines suffix files, (Part.line line).IsPlain := by
  unfold changedFileLines
  split
  · exact List.forall_mem_singleton.mpr ⟨noBreak_of_all (by decide), by decide⟩
  · intro line hline
    obtain ⟨file, hfile, rfl⟩ := List.mem_map.mp hline
    refine ⟨NoBreak.append (NoBreak.append (noBreak_of_all (by decide)) (noBreak_inlineCode _)) ?_,
      by rfl⟩
    exact hsuffix file hfile

theorem noBreak_projectFileSuffix {file : ChangedFile} (h : NoBreak file.status) :
    NoBreak (projectFileSuffix file) := by
  refine NoBreak.append (NoBreak.append (NoBreak.append (noBreak_of_all (by decide))
    h.escapeMarkdown) (noBreak_of_all (by decide))) ?_
  split
  · exact ((((noBreak_of_all (by decide)).append (noBreak_showNumber _)).append
      (noBreak_of_all (by decide))).append (noBreak_showNumber _)).append
        (noBreak_of_all (by decide))
  · exact List.forall_mem_nil _

theorem noBreak_diffFileSuffix {file : ChangedFile} (h : NoBreak file.status) :
    NoBreak (diffFileSuffix file) :=
  ((((((noBreak_of_all (by decide)).append h.escapeMarkdown).append
    (noBreak_of_all (by decide))).append (noBreak_showNumber _)).append
      (noBreak_of_all (by decide))).append (noBreak_showNumber _)).append
        (noBreak_of_all (by decide))

/-- Lines that are joined already stand for themselves. -/
theorem joinLines_join {before lines after : List Chars} (hbefore : before ≠ [])
    (hlines : lines ≠ []) (hafter : after ≠ []) :
    joinLines (before ++ joinLines lines :: after) = joinLines (before ++ (lines ++ after)) := by
  rw [joinLines_append hbefore (List.cons_ne_nil _ _), joinLines_cons _ hafter,
    joinLines_append hbefore (List.append_ne_nil_of_left_ne_nil hlines _),
    joinLines_append hlines hafter]

/-! ### Exports -/

/-- What is exported. -/
inductive Export where
  | project (roomName projectPath : Chars) (files : List ChangedFile)
      (selectedFile : Option SelectedFile) (selectedDiff : Option SelectedDiff)
      (sensitiveRisks : List Chars)
  | diffSummary (room : Room) (branch : Chars) (files : List ChangedFile)
      (selectedDiff : Option SelectedDiff) (sensitiveRisks : List Chars)
  | terminal (room : Room) (snapshot : Option TerminalSnapshot) (lines : List TerminalLine)
      (sensitiveRisks : List Chars)

namespace Export

def document : Export → Chars
  | project roomName projectPath files selectedFile selectedDiff sensitiveRisks =>
    buildProjectMarkdown roomName projectPath files selectedFile selectedDiff sensitiveRisks
  | diffSummary room branch files selectedDiff sensitiveRisks =>
    buildDiffSummaryMarkdown room branch files selectedDiff sensitiveRisks
  | terminal room snapshot lines sensitiveRisks =>
    buildTerminalMarkdown room snapshot lines sensitiveRisks

@[grind =] def diffTexts (selectedDiff : Option SelectedDiff) : List (Chars × Chars) :=
  (shownDiff selectedDiff).toList.map fun diff ↦ ("diff".toList, diff.diff)

/-- The exported texts, with the language of their blocks. -/
def texts : Export → List (Chars × Chars)
  | project _ _ _ selectedFile selectedDiff _ =>
    diffTexts selectedDiff ++ selectedFile.toList.map fun file ↦ ([], file.content)
  | diffSummary _ _ _ selectedDiff _ => diffTexts selectedDiff
  | terminal _ _ lines _ => [("text".toList, terminalOutput lines)]

/-- The names that the document has on lines of its own text. -/
def names : Export → List Chars
  | project roomName _ files selectedFile selectedDiff sensitiveRisks =>
    roomName :: files.map ChangedFile.status ++ selectedFile.toList.map SelectedFile.path ++
      selectedDiff.toList.map SelectedDiff.path ++ sensitiveRisks
  | diffSummary room branch files selectedDiff sensitiveRisks =>
    [room.name, branch] ++ files.map ChangedFile.status ++
      selectedDiff.toList.map SelectedDiff.path ++ sensitiveRisks
  | terminal room snapshot _ sensitiveRisks =>
    room.name :: snapshot.toList.map TerminalSnapshot.name ++ sensitiveRisks

/-- No name goes over a line. -/
def NamesAreLines (e : Export) : Prop := ∀ name ∈ e.names, NoBreak name

/-- The document has the exported texts as the contents of its code blocks. -/
def Confines (e : Export) : Prop := Holds e.document e.texts

def KeepsBlankLines (e : Export) : Prop := ∀ text ∈ e.texts, Markdown.KeepsBlankLines text.2

end Export

/-- The title of a document and what stands under it. -/
@[grind =] def headParts (title : List Chars) (risks : List Chars) : List Part :=
  (title ++ sensitiveWarningBlock risks ++ [[]]).map Part.line

theorem headParts_plain {title risks : List Chars}
    (htitle : ∀ line ∈ title, (Part.line line).IsPlain) (hrisks : ∀ risk ∈ risks, NoBreak risk) :
    ∀ part ∈ headParts title risks, part.IsPlain := by
  have hempty : ∀ line ∈ [([] : Chars)], (Part.line line).IsPlain :=
    List.forall_mem_singleton.mpr ⟨List.forall_mem_nil _, rfl⟩
  intro part hpart
  obtain ⟨line, hline, rfl⟩ := List.mem_map.mp hpart
  rcases List.mem_append.mp hline with hline | hline
  · exact (List.mem_append.mp hline).elim (htitle line)
      (sensitiveWarningBlock_plain hrisks line)
  · exact hempty line hline

/-- The list of the changed files. -/
@[grind =] def changedParts (suffix : ChangedFile → Chars) (files : List ChangedFile) : List Part :=
  ("## Changed Files".toList :: changedFileLines suffix files ++ [[]]).map Part.line

theorem changedParts_plain {suffix : ChangedFile → Chars} {files : List ChangedFile}
    (hsuffix : ∀ file ∈ files, NoBreak (suffix file)) :
    ∀ part ∈ changedParts suffix files, part.IsPlain := by
  intro part hpart
  obtain ⟨line, hline, rfl⟩ := List.mem_map.mp hpart
  rcases List.mem_append.mp hline with hline | hline
  · rcases List.mem_cons.mp hline with rfl | hline
    · exact ⟨noBreak_of_all (by decide), by decide⟩
    · exact changedFileLines_plain hsuffix line hline
  · obtain rfl := List.mem_singleton.mp hline
    exact ⟨List.forall_mem_nil _, rfl⟩

theorem texts_lines (lines : List Chars) : Part.texts (lines.map Part.line) = [] := by
  rw [Part.texts, List.filterMap_map]
  exact List.filterMap_eq_nil_iff.mpr fun _ _ ↦ rfl

theorem texts_append (parts parts' : List Part) :
    Part.texts (parts ++ parts') = Part.texts parts ++ Part.texts parts' := List.filterMap_append

theorem map_render_lines (lines : List Chars) : (lines.map Part.line).map Part.render = lines := by
  rw [List.map_map]
  exact List.map_id _

/-- What stands above the code of a document on a project. -/
theorem compactMarkdown_head (title risks : List Chars) (suffix : ChangedFile → Chars)
    (files : List ChangedFile) (rest : List Chars) :
    compactMarkdown (title ++ sensitiveWarningBlock risks ++
      [[], "## Changed Files".toList, changedFilesPart suffix files, []] ++ rest) =
        compactMarkdown ((headParts title risks ++ changedParts suffix files).map Part.render ++
          rest) := by
  have hbefore : title ++ sensitiveWarningBlock risks ++ [[], "## Changed Files".toList] ≠ [] :=
    List.append_ne_nil_of_right_ne_nil _ (List.cons_ne_nil _ _)
  have hjoin := joinLines_join hbefore (changedFileLines_ne_nil suffix files)
    (List.cons_ne_nil [] rest)
  rw [joinLines_changedFileLines] at hjoin
  rw [compactMarkdown, compactMarkdown, List.map_append, headParts, changedParts,
    map_render_lines, map_render_lines]
  simp only [List.append_assoc, List.cons_append, List.nil_append] at hjoin ⊢
  rw [hjoin]

/-- The block of a diff, with its heading. -/
def diffParts (heading : Chars) (diff : SelectedDiff) : List Part :=
  [.line (heading ++ escapeMarkdown diff.path), .line [], .code "diff".toList diff.diff]

theorem diffParts_plain (heading : Chars) (hheading : NoBreak heading)
    (halone : ∀ text, CommonMark.standsAlone (heading ++ text) = true) {diff : SelectedDiff}
    (h : NoBreak diff.path) : ∀ part ∈ diffParts heading diff, part.IsPlain :=
  List.forall_mem_cons.mpr ⟨⟨hheading.append h.escapeMarkdown, halone _⟩,
    List.forall_mem_cons.mpr ⟨⟨List.forall_mem_nil _, rfl⟩, List.forall_mem_singleton.mpr
      (show IsInfo "diff".toList from isInfo_of_all (by decide))⟩⟩

theorem getLast?_fencedCode (value language : Chars) :
    (fencedCode value language).getLast? = some backtick := by
  rw [fencedCode_eq, List.replicate_succ']
  have hsplit : ∀ s t u : Chars, s ++ '\n' :: (t ++ '\n' :: (u ++ [backtick])) =
      s ++ '\n' :: (t ++ '\n' :: u) ++ [backtick] := fun s t u ↦ by
    simp only [List.append_assoc, List.cons_append]
  rw [hsplit]
  exact List.getLast?_concat

theorem isWhiteSpace_backtick : Text.isWhiteSpace backtick = false := by decide

/-- A document on a project holds the texts behind the list of the changed files. -/
theorem holds_head_iff {title risks : List Chars} {suffix : ChangedFile → Chars}
    {files : List ChangedFile} {body : List Part} {last : Part} {c : Char} {rest : List Chars}
    {texts : List (Chars × Chars)} (hrest : rest = (body ++ [last]).map Part.render)
    (htexts : texts = Part.texts (body ++ [last]))
    (htitle : ∀ line ∈ title, (Part.line line).IsPlain) (hrisks : ∀ risk ∈ risks, NoBreak risk)
    (hsuffix : ∀ file ∈ files, NoBreak (suffix file))
    (hbody : ∀ part ∈ body ++ [last], part.IsPlain) (hlast : last.render.getLast? = some c)
    (hc : Text.isWhiteSpace c = false) :
    Holds (compactMarkdown (title ++ sensitiveWarningBlock risks ++
      [[], "## Changed Files".toList, changedFilesPart suffix files, []] ++ rest)) texts ↔
      ∀ text ∈ texts, KeepsBlankLines text.2 := by
  subst hrest htexts
  have hplain : ∀ part ∈ headParts title risks ++ changedParts suffix files ++ body ++ [last],
      part.IsPlain := by
    rw [List.append_assoc]
    exact List.forall_mem_append.mpr ⟨List.forall_mem_append.mpr
      ⟨headParts_plain htitle hrisks, changedParts_plain hsuffix⟩, hbody⟩
  have htexts : Part.texts (headParts title risks ++ changedParts suffix files ++ body ++ [last]) =
      Part.texts (body ++ [last]) := by
    rw [List.append_assoc, texts_append, texts_append, headParts, changedParts, texts_lines,
      texts_lines]
    rfl
  have hiff := holds_parts_iff hplain hlast hc
  rw [htexts, List.append_assoc, List.map_append] at hiff
  rw [compactMarkdown_head]
  exact hiff

theorem texts_cons_line (line : Chars) (parts : List Part) :
    Part.texts (.line line :: parts) = Part.texts parts := rfl

theorem blank_plain : (Part.line []).IsPlain := ⟨List.forall_mem_nil _, rfl⟩

theorem literal_plain {line : Chars} (h : line.all (fun c ↦ !isBreak c) = true)
    (halone : CommonMark.standsAlone line = true) : (Part.line line).IsPlain :=
  ⟨noBreak_of_all h, halone⟩

section

variable {risks : List Chars} {files : List ChangedFile}

theorem diffSummary_iff {room : Room} {branch : Chars} {selectedDiff : Option SelectedDiff}
    (h : (Export.diffSummary room branch files selectedDiff risks).NamesAreLines) :
    (Export.diffSummary room branch files selectedDiff risks).Confines ↔
      (Export.diffSummary room branch files selectedDiff risks).KeepsBlankLines := by
  obtain ⟨h, hrisks⟩ := List.forall_mem_append.mp h
  obtain ⟨h, hdiff⟩ := List.forall_mem_append.mp h
  obtain ⟨hnames, hstatus⟩ := List.forall_mem_append.mp h
  obtain ⟨hname, hbranch⟩ := List.forall_mem_cons.mp hnames
  have hbranch := List.forall_mem_singleton.mp hbranch
  have htitle : ∀ line ∈ ["# ".toList ++ escapeMarkdown room.name ++ " Diff Summary".toList, [],
      "Project: ".toList ++ inlineCode room.projectPath,
        "Branch: ".toList ++ escapeMarkdown branch, []], (Part.line line).IsPlain := by
    refine List.forall_mem_cons.mpr ⟨⟨?_, by rfl⟩, List.forall_mem_cons.mpr
      ⟨blank_plain, List.forall_mem_cons.mpr ⟨⟨?_, by rfl⟩,
        List.forall_mem_cons.mpr ⟨⟨?_, by rfl⟩, List.forall_mem_singleton.mpr blank_plain⟩⟩⟩⟩
    · exact ((noBreak_of_all (by decide)).append hname.escapeMarkdown).append
        (noBreak_of_all (by decide))
    · exact (noBreak_of_all (by decide)).append (noBreak_inlineCode _)
    · exact (noBreak_of_all (by decide)).append hbranch.escapeMarkdown
  have hsuffix : ∀ file ∈ files, NoBreak (diffFileSuffix file) := fun file hfile ↦
    noBreak_diffFileSuffix (hstatus _ (List.mem_map_of_mem hfile))
  show Holds (buildDiffSummaryMarkdown room branch files selectedDiff risks)
    (Export.diffTexts selectedDiff) ↔ ∀ text ∈ Export.diffTexts selectedDiff, _
  rw [buildDiffSummaryMarkdown, Export.diffTexts]
  rcases hshown : shownDiff selectedDiff with _ | diff
  · have hplain : ∀ part ∈ [Part.line "## Selected Diff".toList, .line []] ++
        [Part.line "No changed file selected.".toList], part.IsPlain :=
      List.forall_mem_cons.mpr ⟨literal_plain (by decide) (by decide), List.forall_mem_cons.mpr
        ⟨blank_plain, List.forall_mem_singleton.mpr (literal_plain (by decide) (by decide))⟩⟩
    exact holds_head_iff (c := '.') rfl rfl htitle hrisks hsuffix hplain (by decide) (by decide)
  · have hpath : NoBreak diff.path := hdiff _ (List.mem_map_of_mem (by
      rw [Option.mem_toList]
      exact (Option.filter_eq_some_iff.mp hshown).1))
    have hplain : ∀ part ∈ [Part.line ("## Selected Diff: ".toList ++ escapeMarkdown diff.path),
        .line []] ++ [Part.code "diff".toList diff.diff], part.IsPlain :=
      diffParts_plain "## Selected Diff: ".toList (noBreak_of_all (by decide))
        (fun _ ↦ by rfl) hpath
    exact holds_head_iff (c := backtick) rfl rfl htitle hrisks hsuffix hplain
      (getLast?_fencedCode _ _) isWhiteSpace_backtick

theorem project_iff {roomName projectPath : Chars} {selectedFile : Option SelectedFile}
    {selectedDiff : Option SelectedDiff}
    (h : (Export.project roomName projectPath files selectedFile selectedDiff
      risks).NamesAreLines) :
    (Export.project roomName projectPath files selectedFile selectedDiff risks).Confines ↔
      (Export.project roomName projectPath files selectedFile selectedDiff
        risks).KeepsBlankLines := by
  obtain ⟨h, hrisks⟩ := List.forall_mem_append.mp h
  obtain ⟨h, hdiff⟩ := List.forall_mem_append.mp h
  obtain ⟨h, hfile⟩ := List.forall_mem_append.mp h
  obtain ⟨hname, hstatus⟩ := List.forall_mem_cons.mp h
  have htitle : ∀ line ∈ ["# ".toList ++ escapeMarkdown roomName ++ " Project Context".toList, [],
      "Project: ".toList ++ inlineCode projectPath, []], (Part.line line).IsPlain := by
    refine List.forall_mem_cons.mpr ⟨⟨?_, by rfl⟩, List.forall_mem_cons.mpr
      ⟨blank_plain, List.forall_mem_cons.mpr ⟨⟨?_, by rfl⟩,
        List.forall_mem_singleton.mpr blank_plain⟩⟩⟩
    · exact ((noBreak_of_all (by decide)).append hname.escapeMarkdown).append
        (noBreak_of_all (by decide))
    · exact (noBreak_of_all (by decide)).append (noBreak_inlineCode _)
  have hsuffix : ∀ file ∈ files, NoBreak (projectFileSuffix file) := fun file hfile ↦
    noBreak_projectFileSuffix (hstatus _ (List.mem_map_of_mem hfile))
  show Holds (buildProjectMarkdown roomName projectPath files selectedFile selectedDiff risks)
    (Export.diffTexts selectedDiff ++ selectedFile.toList.map fun file ↦ ([], file.content)) ↔
      ∀ text ∈ Export.diffTexts selectedDiff ++
        selectedFile.toList.map fun file ↦ ([], file.content), _
  have hdiffs : ∃ parts : List Part, selectedDiffSection selectedDiff = parts.map Part.render ∧
      Part.texts parts = Export.diffTexts selectedDiff ∧ ∀ part ∈ parts, part.IsPlain := by
    rw [Export.diffTexts, selectedDiffSection]
    rcases hshown : shownDiff selectedDiff with _ | diff
    · exact ⟨[], rfl, rfl, List.forall_mem_nil _⟩
    · have hpath : NoBreak diff.path := hdiff _ (List.mem_map_of_mem (by
        rw [Option.mem_toList]
        exact (Option.filter_eq_some_iff.mp hshown).1))
      refine ⟨diffParts "## Diff: ".toList diff ++ [.line []], rfl, rfl, ?_⟩
      exact List.forall_mem_append.mpr ⟨diffParts_plain _ (noBreak_of_all (by decide))
        (fun _ ↦ by rfl) hpath, List.forall_mem_singleton.mpr blank_plain⟩
  obtain ⟨parts, hparts, htexts, hpartsPlain⟩ := hdiffs
  rw [buildProjectMarkdown, hparts, ← htexts, List.append_assoc _ (parts.map Part.render)]
  rcases selectedFile with _ | file
  · have hplain : ∀ part ∈ parts ++ [.line "## Selected File".toList, .line []] ++
        [Part.line "No file selected.".toList], part.IsPlain := by
      refine List.forall_mem_append.mpr ⟨List.forall_mem_append.mpr ⟨hpartsPlain, ?_⟩, ?_⟩
      · exact List.forall_mem_cons.mpr ⟨literal_plain (by decide) (by decide),
          List.forall_mem_singleton.mpr blank_plain⟩
      · exact List.forall_mem_singleton.mpr (literal_plain (by decide) (by decide))
    refine holds_head_iff (c := '.') ?_ ?_ htitle hrisks hsuffix hplain (by decide) (by decide)
    · rw [List.append_assoc, List.map_append]
      rfl
    · rw [List.append_assoc, texts_append]
      rfl
  · have hpath : NoBreak file.path := hfile _ List.mem_cons_self
    let preview : Chars := if file.truncated then
      "> Preview truncated at ".toList ++ formatBytes (encodedBytes file.content) ++ ".".toList
      else []
    have hpreview : (Part.line preview).IsPlain := by
      show (Part.line (if _ then _ else _)).IsPlain
      split
      · exact ⟨((noBreak_of_all (by decide)).append (noBreak_formatBytes _)).append
          (noBreak_of_all (by decide)), by rfl⟩
      · exact blank_plain
    have hplain : ∀ part ∈ parts ++ [.line ("## ".toList ++ escapeMarkdown file.path), .line [],
        .line preview, .line []] ++ [Part.code [] file.content], part.IsPlain := by
      refine List.forall_mem_append.mpr ⟨List.forall_mem_append.mpr ⟨hpartsPlain, ?_⟩, ?_⟩
      · exact List.forall_mem_cons.mpr ⟨⟨(noBreak_of_all (by decide)).append hpath.escapeMarkdown,
          by rfl⟩, List.forall_mem_cons.mpr ⟨blank_plain, List.forall_mem_cons.mpr
            ⟨hpreview, List.forall_mem_singleton.mpr blank_plain⟩⟩⟩
      · exact List.forall_mem_singleton.mpr (List.forall_mem_nil _)
    refine holds_head_iff (c := backtick) ?_ ?_ htitle hrisks hsuffix hplain
      (getLast?_fencedCode _ _) isWhiteSpace_backtick
    · rw [List.append_assoc, List.map_append]
      rfl
    · rw [List.append_assoc, texts_append]
      rfl

theorem noBreak_exitStatus (exitStatus : Option ℤ) :
    NoBreak (exitStatus.elim "done" toString).toList := by
  rcases exitStatus with _ | ⟨n⟩ | ⟨n⟩
  · exact noBreak_of_all (by decide)
  · exact noBreak_showNumber n
  · show NoBreak ("-" ++ toString (n + 1)).toList
    rw [String.toList_append]
    exact (noBreak_of_all (by decide)).append (noBreak_showNumber (n + 1))

theorem terminalSection_plain (snapshot : Option TerminalSnapshot) :
    ∀ line ∈ terminalSection snapshot, (Part.line line).IsPlain := by
  rcases snapshot with _ | snapshot
  · exact List.forall_mem_nil _
  · refine List.forall_mem_cons.mpr ⟨⟨?_, by rfl⟩, List.forall_mem_cons.mpr ⟨⟨?_, by rfl⟩,
      List.forall_mem_singleton.mpr ⟨?_, by rfl⟩⟩⟩
    · exact (noBreak_of_all (by decide)).append (noBreak_inlineCode _)
    · exact (noBreak_of_all (by decide)).append (noBreak_inlineCode _)
    · refine (noBreak_of_all (by decide)).append ?_
      split
      · exact noBreak_of_all (by decide)
      · exact noBreak_exitStatus _

theorem terminal_iff {room : Room} {snapshot : Option TerminalSnapshot}
    {lines : List TerminalLine} (h : (Export.terminal room snapshot lines risks).NamesAreLines) :
    (Export.terminal room snapshot lines risks).Confines ↔
      (Export.terminal room snapshot lines risks).KeepsBlankLines := by
  obtain ⟨h, hrisks⟩ := List.forall_mem_append.mp h
  obtain ⟨hname, hterminal⟩ := List.forall_mem_cons.mp h
  have htitle : NoBreak ((snapshot.map TerminalSnapshot.name).getD "Room terminal log".toList) := by
    rcases snapshot with _ | snapshot
    · exact noBreak_of_all (by decide)
    · exact hterminal _ List.mem_cons_self
  have hhead : ∀ line ∈ ["# ".toList ++ escapeMarkdown room.name ++ " Terminal Output".toList, [],
      "Project: ".toList ++ inlineCode room.projectPath, "Terminal: ".toList ++ escapeMarkdown
        ((snapshot.map TerminalSnapshot.name).getD "Room terminal log".toList)],
      (Part.line line).IsPlain := by
    refine List.forall_mem_cons.mpr ⟨⟨?_, by rfl⟩, List.forall_mem_cons.mpr
      ⟨blank_plain, List.forall_mem_cons.mpr ⟨⟨?_, by rfl⟩,
        List.forall_mem_singleton.mpr ⟨?_, by rfl⟩⟩⟩⟩
    · exact ((noBreak_of_all (by decide)).append hname.escapeMarkdown).append
        (noBreak_of_all (by decide))
    · exact (noBreak_of_all (by decide)).append (noBreak_inlineCode _)
    · exact (noBreak_of_all (by decide)).append htitle.escapeMarkdown
  show Holds (buildTerminalMarkdown room snapshot lines risks)
    [("text".toList, terminalOutput lines)] ↔
      ∀ text ∈ [("text".toList, terminalOutput lines)], _
  rw [buildTerminalMarkdown]
  generalize ["# ".toList ++ escapeMarkdown room.name ++ " Terminal Output".toList, [],
      "Project: ".toList ++ inlineCode room.projectPath, "Terminal: ".toList ++ escapeMarkdown
        ((snapshot.map TerminalSnapshot.name).getD "Room terminal log".toList)] = head at hhead ⊢
  have hplain : ∀ part ∈ (head ++ terminalSection snapshot ++ [[]] ++ sensitiveWarningBlock risks ++
      [[]]).map Part.line ++ [Part.code "text".toList (terminalOutput lines)], part.IsPlain := by
    have hempty : ∀ line ∈ [([] : Chars)], (Part.line line).IsPlain :=
      List.forall_mem_singleton.mpr blank_plain
    refine List.forall_mem_append.mpr ⟨List.forall_mem_map.mpr ?_,
      List.forall_mem_singleton.mpr (show IsInfo "text".toList from isInfo_of_all (by decide))⟩
    exact List.forall_mem_append.mpr ⟨List.forall_mem_append.mpr ⟨List.forall_mem_append.mpr
      ⟨List.forall_mem_append.mpr ⟨hhead, terminalSection_plain snapshot⟩, hempty⟩,
        sensitiveWarningBlock_plain hrisks⟩, hempty⟩
  have hiff := holds_parts_iff (c := backtick) hplain (getLast?_fencedCode _ _)
    isWhiteSpace_backtick
  rw [texts_append, texts_lines, List.map_append, map_render_lines, List.append_assoc] at hiff
  exact hiff

end

/-! ### The exports -/

theorem holds_iff_read (document : Chars) (texts : List (Chars × Chars)) :
    Holds document texts ↔ (CommonMark.read document).map CommonMark.codeBlocks =
      some (texts.map fun text ↦ (text.1, text.2 ++ ['\n'])) :=
  Option.map_eq_some_iff.symm

private def fileExport (roomName content : String) : Export :=
  .project roomName.toList "/project".toList [] (some ⟨"a".toList, content.toList, false⟩) none []

end MultAIplayer.Desktop.Markdown
