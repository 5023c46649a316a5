import Mathlib.Data.List.DropRight
import Mathlib.Data.List.Infix
import Mathlib.Data.List.TakeWhile

/-!
# Code in CommonMark documents

The part of CommonMark that is about code. A fenced code block opens with at least three backticks
or tildes and goes on to the first line that has as many of them and nothing else; a code span goes
on to the first run of as many backticks as it opens with.

`read` reads documents whose lines outside of code cannot hold what follows them: such a line is not
indented and starts neither a fence nor an HTML block. Whatever it opens (a quote, an item of a
list) is closed by the next line that is no part of it, and a fence that is not indented is never
one. What is not of this kind is not read.

A line ends with a line feed, a carriage return, or both.
-/

namespace CommonMark

abbrev Chars := List Char

/-- A line and what ends it. -/
abbrev Line := Chars × Chars

def backtick : Char := '\x60'

def isBreak (c : Char) : Bool := c = '\n' || c = '\r'

@[grind =] def lines : Chars → List Line
  | [] => []
  | '\r' :: '\n' :: text => ([], ['\r', '\n']) :: lines text
  | c :: text =>
    if isBreak c then ([], [c]) :: lines text
    else
      match lines text with
      | [] => [([c], [])]
      | (line, ending) :: rest => (c :: line, ending) :: rest

/-- The text of lines with their ends. -/
def rawText (lines : List Line) : Chars := lines.flatMap fun line ↦ line.1 ++ line.2

/-! ### Fences -/

structure Fence where
  marker : Char
  length : ℕ
  deriving DecidableEq

/-- How often a character stands at the start. -/
@[grind =] def run (c : Char) (text : Chars) : ℕ := (text.takeWhile (· = c)).length

def isBlank (c : Char) : Bool := c = ' ' || c = '\t'

/-- The fence that a line opens, and its info string. -/
def opensFence (line : Chars) : Option (Fence × Chars) :=
  match line.head? with
  | some c =>
    let info := line.drop (run c line)
    if (c = backtick ∨ c = '~') ∧ 3 ≤ run c line ∧ (c = backtick → backtick ∉ info) then
      some (⟨c, run c line⟩, (info.dropWhile isBlank).rdropWhile isBlank)
    else none
  | none => none

@[grind =] def closesFence (fence : Fence) (line : Chars) : Bool :=
  let text := line.drop (run ' ' line)
  run ' ' line ≤ 3 && fence.length ≤ run fence.marker text &&
    (text.drop (run fence.marker text)).all isBlank

/-- A line that cannot hold what follows it. -/
def standsAlone (line : Chars) : Bool :=
  line.all isBlank || line.head?.any fun c ↦ !isBlank c && c ≠ backtick && c ≠ '~' && c ≠ '<'

/-! ### Blocks -/

inductive Block where
  | line (text : Chars)
  | code (info content : Chars)
  deriving DecidableEq

/-- An open code block: its fence, its info string and what has been read of it. -/
abbrev OpenCode := Fence × Chars × Chars

@[grind =] def readBlocks : Option OpenCode → List Line → Option (List Block)
  | none, [] => some []
  | some (_, info, content), [] => some [.code info content]
  | none, line :: rest =>
    match opensFence line.1 with
    | some (fence, info) => readBlocks (some (fence, info, [])) rest
    | none =>
      if standsAlone line.1 then (readBlocks none rest).map (Block.line line.1 :: ·) else none
  | some (fence, info, content), line :: rest =>
    if closesFence fence line.1 then (readBlocks none rest).map (Block.code info content :: ·)
    else readBlocks (some (fence, info, content ++ (line.1 ++ line.2))) rest

/-- The lines and the code blocks of a document. -/
@[grind =] def read (text : Chars) : Option (List Block) := readBlocks none (lines text)

/-- The info strings and contents of the code blocks. -/
def codeBlocks (blocks : List Block) : List (Chars × Chars) :=
  blocks.filterMap fun
    | .line _ => none
    | .code info content => some (info, content)

/-! ### Code spans -/

/-- What stands before the first run of `n` backticks, and behind it, after `k` backticks. -/
@[grind =] def untilRun (n : ℕ) : ℕ → Chars → Option (Chars × Chars)
  | k, [] => if k = n then some ([], []) else none
  | k, c :: text =>
    if c = backtick then untilRun n (k + 1) text
    else if k = n then some ([], c :: text)
    else (untilRun n 0 text).map fun (content, rest) ↦
      (List.replicate k backtick ++ c :: content, rest)

/-- One space is taken from both ends, unless there is nothing else. -/
def stripSpaces (content : Chars) : Chars :=
  if content.head? = some ' ' ∧ content.getLast? = some ' ' ∧ ¬ content.all (· = ' ') then
    content.tail.dropLast
  else content

/-- The code span at the start of a text without line breaks, and what stands behind it. -/
def readSpan (text : Chars) : Option (Chars × Chars) :=
  let n := run backtick text
  if n = 0 then none
  else (untilRun n 0 (text.drop n)).map fun (content, rest) ↦ (stripSpaces content, rest)

/-! ### Runs of backticks -/

/-- The lengths of the runs of backticks, after `k` of them. -/
@[grind =] def backtickRuns : ℕ → Chars → List ℕ
  | k, [] => if k = 0 then [] else [k]
  | k, c :: text =>
    if c = backtick then backtickRuns (k + 1) text
    else (if k = 0 then [] else [k]) ++ backtickRuns 0 text

/-! ### Lines -/

variable {text line : Chars} {c : Char}

theorem lines_cons (hc : ¬ isBreak c = true) (text : Chars) : lines (c :: text) =
    match lines text with
    | [] => [([c], [])]
    | (line, ending) :: rest => (c :: line, ending) :: rest := by
  rw [lines]
  · exact if_neg hc
  · rintro rest rfl
    exact absurd rfl hc

/-- Up to its line feed, a text is one line. -/
theorem lines_line (hline : ∀ c ∈ line, ¬ isBreak c = true) (text : Chars) :
    lines (line ++ '\n' :: text) = (line, ['\n']) :: lines text := by
  induction line with
  | nil =>
    rw [List.nil_append, lines]
    · rfl
    · rintro rest h
      cases h
  | cons c line ih =>
    obtain ⟨hc, hrest⟩ := List.forall_mem_cons.mp hline
    rw [List.cons_append, lines_cons hc, ih hrest]

theorem lines_last (hline : ∀ c ∈ line, ¬ isBreak c = true) (hne : line ≠ []) :
    lines line = [(line, [])] := by
  induction line with
  | nil => exact absurd rfl hne
  | cons c line ih =>
    obtain ⟨hc, hrest⟩ := List.forall_mem_cons.mp hline
    rw [lines_cons hc]
    rcases eq_or_ne line [] with rfl | hne'
    · rfl
    · rw [ih hrest hne']

theorem break_cases {c : Char} (h : isBreak c = true) : c = '\n' ∨ c = '\r' := by
  unfold isBreak at h
  rwa [Bool.or_eq_true, decide_eq_true_eq, decide_eq_true_eq] at h

/-- Before a line feed, a text is cut into lines of its own. -/
theorem exists_lines (text : Chars) : ∃ first own, rawText (first :: own) = text ++ ['\n'] ∧
    first.1 <+: text ∧ (∀ line ∈ own, line.1 <:+: text) ∧
    ∀ rest, lines (text ++ '\n' :: rest) = first :: own ++ lines rest := by
  induction hn : text.length using Nat.strong_induction_on generalizing text with
  | _ n ih =>
    rcases text with _ | ⟨c, text⟩
    · exact ⟨([], ['\n']), [], rfl, List.prefix_rfl, List.forall_mem_nil _, fun rest ↦
        lines_line (List.forall_mem_nil _) rest⟩
    rw [List.length_cons] at hn
    obtain ⟨first, own, hraw, hfirst, hown, hlines⟩ := ih _ (by omega) text rfl
    have hbelow : ∀ line ∈ first :: own, line.1 <:+: c :: text := by
      refine List.forall_mem_cons.mpr ⟨?_, fun line hline ↦ ?_⟩
      · exact hfirst.isInfix.trans (List.suffix_cons _ _).isInfix
      · exact (hown line hline).trans (List.suffix_cons _ _).isInfix
    by_cases hc : isBreak c = true
    · by_cases hfeed : c = '\r' ∧ (text = [] ∨ text.head? = some '\n')
      · obtain ⟨rfl, rfl | hhead⟩ := hfeed
        · refine ⟨([], ['\r', '\n']), [], rfl, List.nil_prefix, List.forall_mem_nil _,
            fun rest ↦ ?_⟩
          show lines ('\r' :: '\n' :: rest) = _
          rw [lines]
          rfl
        · -- The carriage return and the line feed behind it are one end.
          obtain ⟨text, rfl⟩ : ∃ tail, text = '\n' :: tail := by
            rcases text with _ | ⟨d, tail⟩
            · cases hhead
            · exact ⟨tail, congrArg (· :: tail) (Option.some.inj hhead)⟩
          rw [List.length_cons] at hn
          obtain ⟨first, own, hraw, hfirst, hown, hlines⟩ := ih _ (by omega) text rfl
          have hsuffix : text <:+ '\r' :: '\n' :: text :=
            (List.suffix_cons _ _).trans (List.suffix_cons _ _)
          refine ⟨([], ['\r', '\n']), first :: own, congrArg ('\r' :: '\n' :: ·) hraw,
            List.nil_prefix, List.forall_mem_cons.mpr ⟨?_, fun line hline ↦ ?_⟩, fun rest ↦ ?_⟩
          · exact hfirst.isInfix.trans hsuffix.isInfix
          · exact (hown line hline).trans hsuffix.isInfix
          · rw [List.cons_append, List.cons_append, lines, hlines]
            rfl
      · refine ⟨([], [c]), first :: own, congrArg (c :: ·) hraw, List.nil_prefix, hbelow,
          fun rest ↦ ?_⟩
        rw [List.cons_append, lines, if_pos hc, hlines]
        · rfl
        · rintro tail rfl htail
          rcases text with _ | ⟨d, text⟩
          · exact hfeed ⟨rfl, Or.inl rfl⟩
          · exact hfeed ⟨rfl, Or.inr (congrArg List.head? htail)⟩
    · obtain ⟨line, ending⟩ := first
      refine ⟨(c :: line, ending), own, congrArg (c :: ·) hraw,
        List.cons_prefix_cons.mpr ⟨rfl, hfirst⟩, (List.forall_mem_cons.mp hbelow).2, fun rest ↦ ?_⟩
      rw [List.cons_append, lines_cons hc, hlines]
      rfl

/-! ### Fenced blocks -/

theorem readBlocks_content {fence : Fence} {info content : Chars} {own : List Line}
    (hown : ∀ line ∈ own, closesFence fence line.1 = false) (rest : List Line) :
    readBlocks (some (fence, info, content)) (own ++ rest) =
      readBlocks (some (fence, info, content ++ rawText own)) rest := by
  induction own generalizing content with
  | nil => rw [List.nil_append, rawText, List.flatMap_nil, List.append_nil]
  | cons line own ih =>
    obtain ⟨hline, hrest⟩ := List.forall_mem_cons.mp hown
    rw [List.cons_append, readBlocks, hline, if_neg Bool.false_ne_true, ih hrest, rawText, rawText,
      List.flatMap_cons, List.append_assoc]

theorem run_starts (c : Char) (text : Chars) : List.replicate (run c text) c <+: text := by
  have htake : List.replicate (run c text) c = text.takeWhile (· = c) :=
    (List.eq_replicate_of_mem fun a ha ↦ by simpa using List.mem_takeWhile_imp ha).symm
  rw [htake]
  exact List.takeWhile_prefix _

theorem run_replicate (c : Char) (n : ℕ) {rest : Chars} (hrest : rest.head? ≠ some c) :
    run c (List.replicate n c ++ rest) = n := by
  unfold run
  rw [List.takeWhile_append_of_pos fun a ha ↦ decide_eq_true (List.eq_of_mem_replicate ha)]
  rcases rest with _ | ⟨d, rest⟩
  · rw [List.takeWhile_nil, List.append_nil, List.length_replicate]
  · have hd : d ≠ c := fun h ↦ hrest (congrArg some h)
    rw [List.takeWhile_cons, decide_eq_false hd, List.length_append, List.length_replicate]
    rfl

/-- No line of a text closes a fence that is longer than what the text has of its marker. -/
theorem closesFence_of_part {fence : Fence} {text line : Chars} (hline : line <:+: text)
    (hlong : ∀ n, List.replicate n fence.marker <:+: text → n < fence.length) :
    closesFence fence line = false := by
  have hrun := hlong (run fence.marker (line.drop (run ' ' line)))
    (((run_starts _ _).isInfix.trans (List.drop_suffix _ _).isInfix).trans hline)
  unfold closesFence
  dsimp only
  rw [decide_eq_false (Nat.not_le.mpr hrun), Bool.and_false, Bool.false_and]

theorem closesFence_self {fence : Fence} (hmarker : fence.marker ≠ ' ') :
    closesFence fence (List.replicate fence.length fence.marker) = true := by
  have hspace : run ' ' (List.replicate fence.length fence.marker) = 0 := by
    rcases fence with ⟨marker, _ | n⟩
    · rfl
    · unfold run
      rw [List.replicate_succ, List.takeWhile_cons, decide_eq_false hmarker]
      rfl
  have hrun : run fence.marker (List.replicate fence.length fence.marker) = fence.length := by
    have hnil : ([] : Chars).head? ≠ some fence.marker := (Option.some_ne_none _).symm
    have h := run_replicate fence.marker fence.length hnil
    rwa [List.append_nil] at h
  unfold closesFence
  rw [hspace]
  dsimp only
  rw [List.drop_zero, hrun, decide_eq_true (Nat.zero_le 3), decide_eq_true (Nat.le_refl _),
    List.drop_eq_nil_of_le (Nat.le_of_eq (List.length_replicate))]
  rfl

section

variable {language : Chars} (hlanguage : ∀ c ∈ language, c ≠ backtick ∧ isBlank c = false ∧
  isBreak c = false)

include hlanguage

theorem opensFence_fence {n : ℕ} (hn : 3 ≤ n) :
    opensFence (List.replicate n backtick ++ language) = some (⟨backtick, n⟩, language) := by
  have hhead : language.head? ≠ some backtick := fun h ↦
    (hlanguage _ (List.mem_of_head? h)).1 rfl
  have hrun := run_replicate backtick n hhead
  have hdrop : (List.replicate n backtick ++ language).drop n = language :=
    List.drop_left' List.length_replicate
  have hblank : ∀ c ∈ language, ¬ isBlank c = true := fun c hc ↦
    Bool.eq_false_iff.mp (hlanguage c hc).2.1
  have hfirst : (List.replicate n backtick ++ language).head? = some backtick := by
    rw [show n = n - 1 + 1 by omega, List.replicate_succ]
    rfl
  have hinfo : (language.dropWhile isBlank).rdropWhile isBlank = language := by
    have hstart : language.dropWhile isBlank = language := by
      rcases language with _ | ⟨c, language⟩
      · rfl
      · exact List.dropWhile_cons_of_neg (hblank c List.mem_cons_self)
    rw [hstart]
    exact List.rdropWhile_eq_self_iff.mpr fun hne ↦ hblank _ (List.getLast_mem hne)
  unfold opensFence
  rw [hfirst]
  dsimp only
  rw [hrun, hdrop, hinfo]
  exact if_pos ⟨Or.inl rfl, hn, fun _ hmem ↦ (hlanguage _ hmem).1 rfl⟩

theorem fence_no_break (n : ℕ) :
    ∀ c ∈ List.replicate n backtick ++ language, ¬ isBreak c = true := by
  intro c hc
  rcases List.mem_append.mp hc with hmem | hmem
  · rw [List.eq_of_mem_replicate hmem]
    decide
  · exact Bool.eq_false_iff.mp (hlanguage c hmem).2.2

/-- **A fenced block.** Between fences that are longer than every run of backticks in it, a text is
the content of one block, with the line feed before the closing fence. -/
theorem readBlocks_fenced {n : ℕ} (hn : 3 ≤ n) {content : Chars}
    (hlong : ∀ k, List.replicate k backtick <:+: content → k < n) {tail ending : Chars}
    {after : List Line} (htail : lines (List.replicate n backtick ++ tail) =
      (List.replicate n backtick, ending) :: after) :
    readBlocks none (lines (List.replicate n backtick ++ language ++ '\n' ::
      (content ++ '\n' :: (List.replicate n backtick ++ tail)))) =
        (readBlocks none after).map (Block.code language (content ++ ['\n']) :: ·) := by
  obtain ⟨first, own, hraw, hfirst, hown, hlines⟩ := exists_lines content
  have hopen : ∀ line ∈ first :: own, closesFence ⟨backtick, n⟩ line.1 = false := by
    refine List.forall_mem_cons.mpr ⟨closesFence_of_part hfirst.isInfix hlong, fun line hline ↦ ?_⟩
    exact closesFence_of_part (hown line hline) hlong
  rw [lines_line (fence_no_break hlanguage n), hlines, htail, readBlocks,
    opensFence_fence hlanguage hn]
  dsimp only
  rw [readBlocks_content hopen, List.nil_append, hraw, readBlocks]
  have hmarker : (⟨backtick, n⟩ : Fence).marker ≠ ' ' := show backtick ≠ ' ' by decide
  exact if_pos (closesFence_self hmarker)

end

/-! ### Runs -/

theorem prefix_of_not_mem {x a b : Chars} {c : Char} (hc : c ∉ x) (h : x <+: a ++ c :: b) :
    x <+: a := by
  rcases Nat.lt_or_ge a.length x.length with hlt | hle
  · have hstarts : a ++ [c] <+: x := by
      have hwhole : a ++ [c] <+: a ++ c :: b := ⟨b, by rw [List.append_assoc]; rfl⟩
      refine List.prefix_of_prefix_length_le hwhole h ?_
      rw [List.length_append, List.length_singleton]
      exact hlt
    exact absurd (hstarts.mem (List.mem_append_right _ (List.mem_singleton_self _))) hc
  · exact List.prefix_of_prefix_length_le h (List.prefix_append _ _) hle

/-- What does not contain a character is on one side of it. -/
theorem infix_of_not_mem {x a b : Chars} {c : Char} (hc : c ∉ x) (h : x <:+: a ++ c :: b) :
    x <:+: a ∨ x <:+: b := by
  induction a with
  | nil =>
    rcases List.infix_cons_iff.mp h with hstarts | hinfix
    · exact Or.inl (prefix_of_not_mem (a := []) hc hstarts).isInfix
    · exact Or.inr hinfix
  | cons d a ih =>
    rcases List.infix_cons_iff.mp h with hstarts | hinfix
    · exact Or.inl (prefix_of_not_mem (a := d :: a) hc hstarts).isInfix
    · exact (ih hinfix).imp_left fun h ↦ h.trans (List.suffix_cons _ _).isInfix

theorem replicate_append_cons {α : Type} (n : ℕ) (a : α) (l : List α) :
    List.replicate n a ++ a :: l = List.replicate (n + 1) a ++ l := by
  rw [List.replicate_succ', List.append_assoc]
  rfl

/-- No more backticks stand together than in the longest run. -/
theorem exists_run {n : ℕ} (hn : 0 < n) (text : Chars) {k : ℕ}
    (h : List.replicate n backtick <:+: List.replicate k backtick ++ text) :
    ∃ m ∈ backtickRuns k text, n ≤ m := by
  induction text generalizing k with
  | nil =>
    rw [List.append_nil] at h
    have hle := h.length_le
    rw [List.length_replicate, List.length_replicate] at hle
    rw [backtickRuns, if_neg (by omega)]
    exact ⟨k, List.mem_singleton_self k, hle⟩
  | cons c text ih =>
    rw [backtickRuns]
    split
    · next hc =>
      rw [hc, replicate_append_cons] at h
      exact ih h
    · next hc =>
      have hnot : c ∉ List.replicate n backtick := fun hmem ↦ hc (List.eq_of_mem_replicate hmem)
      rcases infix_of_not_mem hnot h with hleft | hright
      · have hle := hleft.length_le
        rw [List.length_replicate, List.length_replicate] at hle
        rw [if_neg (by omega)]
        exact ⟨k, List.mem_append_left _ (List.mem_singleton_self k), hle⟩
      · obtain ⟨m, hm, hle⟩ := ih (k := 0) hright
        exact ⟨m, List.mem_append_right _ hm, hle⟩

theorem backtickRuns_concat {c : Char} (hc : c ≠ backtick) (text : Chars) (k : ℕ) :
    backtickRuns k (text ++ [c]) = backtickRuns k text := by
  induction text generalizing k with
  | nil => exact (if_neg hc).trans (List.append_nil _)
  | cons d text ih => rw [List.cons_append, backtickRuns, ih, ih, backtickRuns]

/-! ### Code spans -/

theorem untilRun_replicate (n k j : ℕ) :
    untilRun n k (List.replicate j backtick) = if k + j = n then some ([], []) else none := by
  induction j generalizing k with
  | zero => rfl
  | succ j ih =>
    rw [List.replicate_succ, untilRun, if_pos rfl, ih]
    exact if_congr (by omega) rfl rfl

/-- A text without a run of `n` backticks goes on to the `n` backticks behind it. -/
theorem untilRun_append {n : ℕ} (hn : 0 < n) (text : Chars) {k : ℕ}
    (hruns : ∀ m ∈ backtickRuns k text, m ≠ n) (hlast : text.getLast? ≠ some backtick)
    (hnil : text = [] → k = 0) :
    untilRun n k (text ++ List.replicate n backtick) =
      some (List.replicate k backtick ++ text, []) := by
  induction text generalizing k with
  | nil =>
    rw [hnil rfl, List.nil_append, untilRun_replicate]
    exact if_pos (Nat.zero_add n)
  | cons c text ih =>
    have hrest : text.getLast? ≠ some backtick := by
      intro h
      rcases text with _ | ⟨d, text⟩
      · cases h
      · exact hlast (List.getLast?_cons_cons.trans h)
    rw [backtickRuns] at hruns
    rw [List.cons_append, untilRun]
    split
    · next hc =>
      rw [if_pos hc] at hruns
      have hne : text ≠ [] := by
        rintro rfl
        exact hlast (congrArg some hc)
      rw [ih hruns hrest fun h ↦ absurd h hne, hc, replicate_append_cons]
    · next hc =>
      rw [if_neg hc] at hruns
      have hk : ¬ k = n := by
        rintro rfl
        rw [if_neg (by omega)] at hruns
        exact hruns k (List.mem_append_left _ (List.mem_singleton_self k)) rfl
      rw [if_neg hk, ih (fun m hm ↦ hruns m (List.mem_append_right _ hm)) hrest fun _ ↦ rfl]
      rfl

/-- **A code span.** -/
theorem readSpan_fenced {n : ℕ} (hn : 0 < n) {content : Chars} (hne : content ≠ [])
    (hruns : ∀ m ∈ backtickRuns 0 content, m ≠ n) (hhead : content.head? ≠ some backtick)
    (hlast : content.getLast? ≠ some backtick) :
    readSpan (List.replicate n backtick ++ content ++ List.replicate n backtick) =
      some (stripSpaces content, []) := by
  have hstart : (content ++ List.replicate n backtick).head? ≠ some backtick := by
    obtain ⟨c, content, rfl⟩ := List.exists_cons_of_ne_nil hne
    exact hhead
  unfold readSpan
  dsimp only
  rw [List.append_assoc, run_replicate backtick n hstart, if_neg (by omega),
    List.drop_left' List.length_replicate, untilRun_append hn content hruns hlast fun _ ↦ rfl]
  rfl

end CommonMark
