import Mathlib.Data.List.Infix
import Mathlib.Data.List.TakeWhile
import MultAIplayer.Lib.LineStream

/-!
# Patches that create files

The part of git's patch format that is about new files. A patch is read by lines. A line of a hunk
counts only with its line feed; the mark `\ No newline at end of file` needs none, and neither does
the `index` line of an empty file, since nothing comes after it. A binary hunk ends at an empty
line.

`creations` is what a patch of new files creates, with the bytes that a binary hunk decodes to as a
parameter.
-/

namespace GitPatch

abbrev Text := List Char

/-- A line and whether a line feed ends it. -/
abbrev Line := Text × Bool

/-- A file that a patch creates. -/
structure Creation where
  path : Text
  content : List UInt8
  deriving DecidableEq

/-! ### Lines of a patch -/

def diffHeader (path : Text) : Text := "diff --git a/".toList ++ path ++ " b/".toList ++ path

def modePrefix : Text := "new file mode ".toList

def indexPrefix : Text := "index ".toList

def oldName : Text := "--- /dev/null".toList

def newName (path : Text) : Text := "+++ b/".toList ++ path

/-- The header of a hunk that adds lines to nothing. -/
def hunkHeader (count : ℕ) : Text :=
  "@@ -0,0 +1".toList ++ (if count = 1 then [] else ',' :: (toString count).toList) ++ " @@".toList

def noNewline : Text := "\\ No newline at end of file".toList

def binaryHeader : Text := "GIT binary patch".toList

def literalPrefix : Text := "literal ".toList

/-! ### Reading -/

def encode (text : Text) : List UInt8 := text.flatMap String.utf8EncodeChar

/-- The name that a header gives twice. -/
def headerPath (header : Text) : Option Text :=
  let path := (header.drop 13).take ((header.length - 16) / 2)
  if header = diffHeader path then some path else none

/-- The bytes of added lines. The last one ends with a line feed unless it is marked. -/
def addedContent (added : List Text) (marked : Bool) : List UInt8 :=
  let bytes := added.flatMap fun line ↦ encode line.tail ++ [10]
  if marked then bytes.dropLast else bytes

/-- The hunk of a text file, behind the line of the old name. -/
@[grind =] def textHunk (path : Text) : List Line → Option (List UInt8 × List Line)
  | (name, true) :: (header, true) :: lines =>
    let added := lines.takeWhile fun line ↦ line.1.head? = some '+'
    let rest := lines.drop added.length
    if name = newName path ∧ header = hunkHeader added.length ∧ added ≠ [] ∧
        added.all (fun line ↦ line.2) then
      if (rest.head?.map Prod.fst) = some noNewline then
        some (addedContent (added.map Prod.fst) true, rest.tail)
      else some (addedContent (added.map Prod.fst) false, rest)
    else none
  | _ => none

/-- A line of encoded data. -/
@[grind =] def isData (line : Line) : Bool := line.2 && !line.1.isEmpty && !line.1.contains ' '

@[grind =] def binaryHunk : List Line → Option (List Text × List Line)
  | (literal, true) :: lines =>
    let data := lines.takeWhile isData
    if literalPrefix <+: literal then
      match lines.drop data.length with
      | ([], true) :: rest => some (data.map Prod.fst, rest)
      | _ => none
    else none
  | _ => none

variable (decode : List Text → Option (List UInt8))

/-- The forward and the reverse hunk of a binary file. -/
def binaryHunks (lines : List Line) : Option (List UInt8 × List Line) :=
  match binaryHunk lines with
  | some (data, rest) =>
    match decode data, binaryHunk rest with
    | some content, some (_, rest) => some (content, rest)
    | _, _ => none
  | none => none

/-- What stands behind the `index` line of a file. -/
@[grind =]
def fileHunk (path : Text) (terminated : Bool) : List Line → Option (List UInt8 × List Line)
  | [] => some ([], [])
  | (kind, ended) :: rest =>
    if !terminated then none
    else if kind = oldName then if ended then textHunk path rest else none
    else if kind = binaryHeader then if ended then binaryHunks decode rest else none
    else some ([], (kind, ended) :: rest)

def creation : List Line → Option (Creation × List Line)
  | (header, true) :: (mode, true) :: (index, terminated) :: rest =>
    match headerPath header with
    | none => none
    | some path =>
      if modePrefix <+: mode ∧ indexPrefix <+: index then
        (fileHunk decode path terminated rest).map fun hunk ↦ (⟨path, hunk.1⟩, hunk.2)
      else none
  | _ => none

/-- As many files as there can be lines. -/
def creationsOf : ℕ → List Line → Option (List Creation)
  | _, [] => some []
  | 0, _ :: _ => none
  | n + 1, line :: lines =>
    match creation decode (line :: lines) with
    | none => none
    | some (created, rest) => (creationsOf n rest).map (created :: ·)

/-- The files that a patch creates, if it is well formed. -/
def creations (patch : Text) : Option (List Creation) :=
  creationsOf decode (LineStream.flagged '\n' patch).length (LineStream.flagged '\n' patch)

/-! ### Reading what is written -/

theorem headerPath_diffHeader (path : Text) : headerPath (diffHeader path) = some path := by
  have hpath : ((diffHeader path).drop 13).take (((diffHeader path).length - 16) / 2) = path := by
    have hdrop : (diffHeader path).drop 13 = path ++ (" b/".toList ++ path) := by
      unfold diffHeader
      rw [List.append_assoc, List.append_assoc]
      exact List.drop_left' rfl
    have hlength : ((diffHeader path).length - 16) / 2 = path.length := by
      have h : (diffHeader path).length = 13 + path.length + 3 + path.length := by
        unfold diffHeader
        rw [List.length_append, List.length_append, List.length_append]
        rfl
      omega
    rw [hdrop, hlength, List.take_left]
  unfold headerPath
  dsimp only
  rw [hpath, if_pos rfl]

theorem takeWhile_of_head {α : Type} {p : α → Bool} {l rest : List α} (hl : ∀ a ∈ l, p a = true)
    (hrest : ∀ a ∈ rest.head?, p a = false) : (l ++ rest).takeWhile p = l := by
  rw [List.takeWhile_append_of_pos hl]
  rcases rest with _ | ⟨a, rest⟩
  · rw [List.takeWhile_nil, List.append_nil]
  · rw [List.takeWhile_cons, hrest a rfl]
    exact List.append_nil _

variable {decode} {path : Text} {rest : List Line}

/-- Nothing, or the first line of a file. -/
def StartsFile (rest : List Line) : Prop := ∀ line ∈ rest.head?, ∃ path, line.1 = diffHeader path

theorem StartsFile.nil : StartsFile [] := fun _ h ↦ absurd h (Option.not_mem_none _)

theorem StartsFile.cons (path : Text) (b : Bool) (lines : List Line) :
    StartsFile ((diffHeader path, b) :: lines) := by
  rintro line hline
  exact ⟨path, congrArg Prod.fst (Option.mem_some_iff.mp hline).symm⟩

theorem StartsFile.head?_ne (h : StartsFile rest) {c : Char} (hc : c ≠ 'd') :
    ∀ line ∈ rest.head?, line.1.head? ≠ some c := by
  intro line hline hhead
  obtain ⟨path, hpath⟩ := h line hline
  rw [hpath] at hhead
  exact hc (Option.some.inj hhead).symm

theorem StartsFile.ne (h : StartsFile rest) (text : Text) (htext : text.head? ≠ some 'd') :
    ∀ line ∈ rest.head?, line.1 ≠ text := by
  rintro line hline rfl
  obtain ⟨path, hpath⟩ := h line hline
  exact htext (congrArg List.head? hpath)

theorem StartsFile.isData (h : StartsFile rest) :
    ∀ line ∈ rest.head?, isData line = false := by
  intro line hline
  obtain ⟨path, hpath⟩ := h line hline
  have hspace : line.1.contains ' ' = true := by
    rw [hpath]
    exact List.contains_iff_mem.mpr (List.mem_append_left _ (List.mem_append_left _
      (List.mem_append_left _ (by decide))))
  unfold GitPatch.isData
  rw [hspace]
  exact Bool.and_false _

section

variable {added : List Text} (hadded : ∀ line ∈ added, line.head? = some '+')

include hadded

theorem takeWhile_added (b : Bool) {rest : List Line}
    (hrest : ∀ line ∈ rest.head?, line.1.head? ≠ some '+') :
    (added.map (·, b) ++ rest).takeWhile (fun line ↦ decide (line.1.head? = some '+')) =
      added.map (·, b) := by
  refine takeWhile_of_head (fun line hline ↦ ?_) fun line hline ↦ decide_eq_false (hrest line hline)
  obtain ⟨text, htext, rfl⟩ := List.mem_map.mp hline
  exact decide_eq_true (hadded text htext)

theorem textHunk_eq (hne : added ≠ []) (hrest : ∀ line ∈ rest.head?, line.1.head? ≠ some '+') :
    textHunk path ((newName path, true) :: (hunkHeader added.length, true) ::
        (added.map (·, true) ++ rest)) =
      if (rest.head?.map Prod.fst) = some noNewline then some (addedContent added true, rest.tail)
      else some (addedContent added false, rest) := by
  have hmap : (added.map fun line ↦ (line, true)).map Prod.fst = added := by
    rw [List.map_map]
    exact List.map_id _
  have hends : (added.map fun line ↦ (line, true)).all (fun line ↦ line.2) = true := by
    rw [List.all_map]
    exact List.all_eq_true.mpr fun _ _ ↦ rfl
  rw [textHunk, takeWhile_added hadded true hrest, List.drop_left, hmap, List.length_map]
  exact if_pos ⟨rfl, rfl, fun h ↦ hne (List.map_eq_nil_iff.mp h), hends⟩

/-- A hunk whose lines all have their line feeds. -/
theorem textHunk_whole (hne : added ≠ []) (hrest : StartsFile rest) :
    textHunk path ((newName path, true) :: (hunkHeader added.length, true) ::
      (added.map (·, true) ++ rest)) = some (addedContent added false, rest) := by
  rw [textHunk_eq hadded hne (hrest.head?_ne (by decide)), if_neg]
  intro hmark
  obtain ⟨line, hline, htext⟩ := Option.map_eq_some_iff.mp hmark
  exact hrest.ne noNewline (by decide) line hline htext

/-- A hunk whose last line is marked to have none. -/
theorem textHunk_marked (hne : added ≠ []) (b : Bool) (rest : List Line) :
    textHunk path ((newName path, true) :: (hunkHeader added.length, true) ::
      (added.map (·, true) ++ (noNewline, b) :: rest)) = some (addedContent added true, rest) := by
  rw [textHunk_eq hadded hne]
  · exact if_pos rfl
  · rintro line hline hhead
    have hmark : noNewline.head? ≠ some '+' := by decide
    rw [← Option.some.inj hline] at hhead
    exact hmark hhead

/-- A last line that just ends is none of a hunk. -/
theorem textHunk_unended {last : Text} (hlast : last.head? = some '+') (header name : Line) :
    textHunk path (name :: header :: (added.map (·, true) ++ [(last, false)])) = none := by
  obtain ⟨name, b⟩ := name
  obtain ⟨header, b'⟩ := header
  cases b
  · rfl
  cases b'
  · rfl
  have hwhile : (added.map (·, true) ++ [(last, false)]).takeWhile
      (fun line : Line ↦ decide (line.1.head? = some '+')) =
        added.map (·, true) ++ [(last, false)] := by
    refine List.takeWhile_eq_self_iff.mpr fun line hline ↦ decide_eq_true ?_
    rcases List.mem_append.mp hline with hmem | hmem
    · obtain ⟨text, htext, rfl⟩ := List.mem_map.mp hmem
      exact hadded text htext
    · rw [List.mem_singleton.mp hmem]
      exact hlast
  rw [textHunk, hwhile]
  refine if_neg fun h ↦ ?_
  exact Bool.false_ne_true (List.all_eq_true.mp h.2.2.2 _
    (List.mem_append_right _ (List.mem_singleton_self _)))

end

/-! ### Binary hunks -/

section

variable {data : List Text} (hdata : ∀ line ∈ data, isData (line, true) = true)

include hdata

theorem takeWhile_data (hrest : ∀ line ∈ rest.head?, isData line = false) :
    (data.map (·, true) ++ rest).takeWhile isData = data.map (·, true) := by
  refine takeWhile_of_head (fun line hline ↦ ?_) hrest
  obtain ⟨text, htext, rfl⟩ := List.mem_map.mp hline
  exact hdata text htext

theorem binaryHunk_ended {literal : Text} (hliteral : literalPrefix <+: literal)
    (rest : List Line) :
    binaryHunk ((literal, true) :: (data.map (·, true) ++ ([], true) :: rest)) =
      some (data, rest) := by
  have hmap : (data.map fun line ↦ (line, true)).map Prod.fst = data := by
    rw [List.map_map]
    exact List.map_id _
  rw [binaryHunk, takeWhile_data hdata fun line hline ↦ by rw [← Option.some.inj hline]; rfl,
    List.drop_left, if_pos hliteral, hmap]

/-- A hunk without its empty line is no hunk. -/
theorem binaryHunk_unended {literal : Text} (hrest : StartsFile rest) :
    binaryHunk ((literal, true) :: (data.map (·, true) ++ rest)) = none := by
  rw [binaryHunk, takeWhile_data hdata hrest.isData, List.drop_left]
  split
  · split
    · exact absurd rfl (hrest.ne [] (by decide) _ rfl)
    · rfl
  · rfl

end

/-! ### Files -/

theorem creation_eq {mode index : Text} (hmode : modePrefix <+: mode)
    (hindex : indexPrefix <+: index) (b : Bool) (rest : List Line) :
    creation decode ((diffHeader path, true) :: (mode, true) :: (index, b) :: rest) =
      (fileHunk decode path b rest).map fun hunk ↦ (⟨path, hunk.1⟩, hunk.2) := by
  rw [creation, headerPath_diffHeader]
  exact if_pos ⟨hmode, hindex⟩

theorem fileHunk_startsFile (hrest : StartsFile rest) :
    fileHunk decode path true rest = some ([], rest) := by
  rcases rest with _ | ⟨⟨kind, ended⟩, rest⟩
  · rfl
  · have hold : kind ≠ oldName := hrest.ne oldName (by decide) _ rfl
    have hbinary : kind ≠ binaryHeader := hrest.ne binaryHeader (by decide) _ rfl
    rw [fileHunk, if_neg (by decide), if_neg hold, if_neg hbinary]

theorem fileHunk_text (lines : List Line) :
    fileHunk decode path true ((oldName, true) :: lines) = textHunk path lines := by
  rw [fileHunk, if_neg (by decide), if_pos rfl, if_pos rfl]

theorem fileHunk_binary (lines : List Line) :
    fileHunk decode path true ((binaryHeader, true) :: lines) = binaryHunks decode lines := by
  rw [fileHunk, if_neg (by decide), if_neg (by decide), if_pos rfl, if_pos rfl]

theorem creationsOf_succ {n : ℕ} {lines : List Line} (hne : lines ≠ []) :
    creationsOf decode (n + 1) lines =
      match creation decode lines with
      | none => none
      | some (created, rest) => (creationsOf decode n rest).map (created :: ·) := by
  rcases lines with _ | ⟨line, lines⟩
  · exact absurd rfl hne
  · rfl

/-- A patch that starts with an empty line is none. -/
theorem creations_empty_line (patch : Text) : creations decode ('\n' :: patch) = none := by
  unfold creations
  rw [show '\n' :: patch = [] ++ '\n' :: patch from rfl, LineStream.flagged_line List.not_mem_nil,
    List.length_cons, creationsOf_succ (List.cons_ne_nil _ _)]
  have hnone : creation decode (([], true) :: LineStream.flagged '\n' patch) = none := by
    rcases LineStream.flagged '\n' patch with _ | ⟨⟨mode, b⟩, _ | ⟨⟨index, b'⟩, rest⟩⟩
    · rfl
    · cases b <;> rfl
    · cases b <;> rfl
  rw [hnone]

end GitPatch
