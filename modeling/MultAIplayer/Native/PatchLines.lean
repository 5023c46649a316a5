import MultAIplayer.Native.HandoffPatches

/-!
# What the patch of a handoff has for one file

The lines of a diff as they stand in the patch (`map_lineOf_newFileLines`), and the file that git
reads from them (`reads_patchLines`). A line of a content keeps its bytes unless it is no text, ends
with a carriage return, or looks like a header (`addedLine_tail_iff`); a binary file is never read,
since the empty line behind its reverse hunk is lost (`reads_binary`).
-/

namespace MultAIplayer.Native

open GitPatch (Text Line encode)

/-! ### Lines of the diff of a file -/

/-- A line as `str::lines` gives it. -/
def stripReturn (line : Text) : Text := if line.getLast? = some '\r' then line.dropLast else line

/-- A line of git's output in the patch of a handoff. -/
def lineOf (displayPath : Text) (line : List UInt8) : Text :=
  normalizeNoIndexLine displayPath (stripReturn (fromUtf8Lossy line))

/-- An added line in the patch of a handoff. -/
@[grind =]
def addedLine (displayPath : Text) (line : List UInt8) : Text := lineOf displayPath (0x2b :: line)

theorem rustLines_unlines {lines : List Text} (hlines : ∀ line ∈ lines, '\n' ∉ line) :
    rustLines (LineStream.unlines '\n' lines) = lines.map stripReturn := by
  have hflagged := LineStream.flagged_unlines hlines []
  rw [List.append_nil, LineStream.flagged_nil, List.append_nil] at hflagged
  rw [rustLines, hflagged, List.map_map]
  refine List.map_congr_left fun line _ ↦ ?_
  show (if true = true ∧ line.getLast? = some '\r' then line.dropLast else line) = _
  exact if_congr (and_iff_right rfl) rfl rfl

theorem isPrintable_ne {c d : Char} (h : isPrintable c = true) (hd : isPrintable d = false) :
    c ≠ d := by
  rintro rfl
  exact Bool.false_ne_true (hd.symm.trans h)

section

variable {line : Text} (hline : line.all isPrintable = true)

include hline

theorem not_mem_of_printable {c : Char} (hc : isPrintable c = false) : c ∉ line := fun hmem ↦
  isPrintable_ne (List.all_eq_true.mp hline c hmem) hc rfl

theorem stripReturn_of_printable : stripReturn line = line :=
  if_neg fun hlast ↦ not_mem_of_printable hline (c := '\r') rfl (List.mem_of_getLast? hlast)

theorem lineOf_encode (displayPath : Text) :
    lineOf displayPath (encode line) = normalizeNoIndexLine displayPath line := by
  rw [lineOf, encode, fromUtf8Lossy_encode, stripReturn_of_printable hline]

theorem lineFeed_not_mem_encode_printable : 10 ∉ encode line :=
  lineFeed_not_mem_encode (not_mem_of_printable hline rfl)

end

theorem head?_eq_of_starts {s line : Text} {c : Char} (hs : s.head? = some c) (h : s <+: line) :
    line.head? = some c := by
  obtain ⟨rest, rfl⟩ := h
  rw [List.head?_append, hs]
  rfl

theorem not_prefix_of_head {s line : Text} {c d : Char} (hs : s.head? = some c)
    (hline : line.head? = some d) (hne : c ≠ d) : ¬ s <+: line := fun h ↦
  hne (Option.some.inj ((head?_eq_of_starts hs h).symm.trans hline))

section

variable {displayPath : Text}

/-- Only a line that starts as a header is rewritten. -/
theorem normalizeNoIndexLine_of_head {line : Text} (hd : line.head? ≠ some 'd')
    (hp : line.head? ≠ some '+') (hm : line.head? ≠ some '-') :
    normalizeNoIndexLine displayPath line = line := by
  unfold normalizeNoIndexLine
  rw [if_neg fun h ↦ hd (head?_eq_of_starts (by rfl) h),
    if_neg fun h ↦ hp (head?_eq_of_starts (by rfl) h),
    if_neg fun h ↦ hm (head?_eq_of_starts (by rfl) h)]

theorem normalizeNoIndexLine_of_no_space {line : Text} (h : ' ' ∉ line) :
    normalizeNoIndexLine displayPath line = line := by
  unfold normalizeNoIndexLine
  rw [if_neg fun hp ↦ h (hp.mem (by decide)), if_neg fun hp ↦ h (hp.mem (by decide)),
    if_neg fun hp ↦ h (hp.mem (by decide))]

theorem normalizeNoIndexLine_diff (names : Text) :
    normalizeNoIndexLine displayPath ("diff --git ".toList ++ names) =
      GitPatch.diffHeader displayPath :=
  if_pos (List.prefix_append _ _)

theorem normalizeNoIndexLine_newName (name : Text) :
    normalizeNoIndexLine displayPath ("+++ ".toList ++ name) = GitPatch.newName displayPath :=
  (if_neg (not_prefix_of_head (c := 'd') (d := '+') (by rfl) (by rfl) (by decide))).trans
    (if_pos (List.prefix_append _ _))

theorem normalizeNoIndexLine_oldName :
    normalizeNoIndexLine displayPath GitPatch.oldName = GitPatch.oldName :=
  (if_neg (by decide)).trans ((if_neg (by decide)).trans (if_pos (by decide)))

end

/-! ### The patch of a file -/

section

variable (git : Git) (displayPath : Text) (content : List UInt8) (executable : Bool)

/-- The lines of a file in the patch, up to the `index` line. -/
def headerLines : List Text :=
  [GitPatch.diffHeader displayPath,
    GitPatch.modePrefix ++ (if executable then "100755" else "100644").toList,
    GitPatch.indexPrefix ++ git.objectId content]

/-- The lines of a binary file behind the `index` line, up to the reverse hunk's empty line. -/
def binaryLines : List Text :=
  [GitPatch.binaryHeader, GitPatch.literalPrefix ++ (toString content.length).toList] ++
    git.binaryData content ++ [[], GitPatch.literalPrefix ++ ['0'], "HcmV?d00001".toList]

/-- The lines of a text file behind the `index` line, without the mark. -/
def textLines : List Text :=
  [GitPatch.oldName, GitPatch.newName displayPath,
    GitPatch.hunkHeader (contentLines content).1.length] ++
    (contentLines content).1.map (addedLine displayPath)

/-- The lines of a file in the patch of a handoff. -/
def patchLines : List Text :=
  headerLines git displayPath content executable ++
    if content = [] then []
    else if git.isBinary content then binaryLines git content ++ [[]]
    else textLines displayPath content ++
      if (contentLines content).2 then [] else [GitPatch.noNewline]

end

theorem isPrintable_digits (n : ℕ) : (toString n).toList.all isPrintable = true := by
  rw [Nat.toString_eq_repr, Nat.toList_repr]
  refine List.all_eq_true.mpr fun c hc ↦ ?_
  have hdigit : c.isDigit = true := Nat.isDigit_of_mem_toDigits (by decide) (by decide) hc
  unfold Char.isDigit at hdigit
  rw [Bool.and_eq_true, decide_eq_true_eq, decide_eq_true_eq] at hdigit
  have hlow : 48 ≤ c.toNat := UInt32.le_iff_toNat_le.mp hdigit.1
  have hhigh : c.toNat ≤ 57 := UInt32.le_iff_toNat_le.mp hdigit.2
  unfold isPrintable
  rw [Bool.and_eq_true, decide_eq_true_eq, decide_eq_true_eq]
  omega

theorem printable_append {s t : Text} (hs : s.all isPrintable = true)
    (ht : t.all isPrintable = true) : (s ++ t).all isPrintable = true := by
  rw [List.all_append, hs, ht]
  rfl

theorem printable_hunkHeader (count : ℕ) : (GitPatch.hunkHeader count).all isPrintable = true := by
  refine printable_append (printable_append (by decide) ?_) (by decide)
  split
  · rfl
  · exact (Bool.and_eq_true _ _).mpr ⟨rfl, isPrintable_digits count⟩

theorem printable_mode (executable : Bool) : (GitPatch.modePrefix ++
    (if executable then "100755" else "100644").toList).all isPrintable = true := by
  cases executable <;> decide

theorem printable_literal (n : ℕ) :
    (GitPatch.literalPrefix ++ (toString n).toList).all isPrintable = true :=
  printable_append (by decide) (isPrintable_digits n)

/-- A line whose first character is that of no header is as git writes it. -/
theorem lineOf_kept {displayPath line : Text} {c : Char} (hline : line.all isPrintable = true)
    (hhead : line.head? = some c) (hc : c ≠ 'd' ∧ c ≠ '+' ∧ c ≠ '-') :
    lineOf displayPath (encode line) = line := by
  rw [lineOf_encode hline]
  refine normalizeNoIndexLine_of_head ?_ ?_ ?_ <;> rw [hhead]
  · exact fun h ↦ hc.1 (Option.some.inj h)
  · exact fun h ↦ hc.2.1 (Option.some.inj h)
  · exact fun h ↦ hc.2.2 (Option.some.inj h)

section

variable (git : Git) (displayPath : Text) (content : List UInt8) (executable : Bool)

theorem map_lineOf_binary : ([GitPatch.binaryHeader, GitPatch.literalPrefix ++
      (toString content.length).toList].map encode ++ (git.binaryData content).map encode ++
      [[], GitPatch.literalPrefix ++ ['0'], "HcmV?d00001".toList, []].map encode).map
        (lineOf displayPath) = binaryLines git content ++ [[]] := by
  have hdata : ((git.binaryData content).map encode).map (lineOf displayPath) =
      git.binaryData content := by
    rw [List.map_map]
    refine (List.map_congr_left fun line hline ↦ ?_).trans (List.map_id _)
    obtain ⟨hprintable, -, hspace⟩ := git.binaryData_isData content line hline
    show lineOf displayPath (encode line) = line
    rw [lineOf_encode hprintable, normalizeNoIndexLine_of_no_space hspace]
  have hheader : lineOf displayPath (encode GitPatch.binaryHeader) = GitPatch.binaryHeader :=
    lineOf_kept (c := 'G') (by decide) (by rfl) (by decide)
  have hliteral : lineOf displayPath (encode (GitPatch.literalPrefix ++
      (toString content.length).toList)) =
        GitPatch.literalPrefix ++ (toString content.length).toList :=
    lineOf_kept (c := 'l') (printable_literal _) (by rfl) (by decide)
  have hzero : lineOf displayPath (encode (GitPatch.literalPrefix ++ ['0'])) =
      GitPatch.literalPrefix ++ ['0'] :=
    lineOf_kept (c := 'l') (by decide) (by rfl) (by decide)
  have hnothing : lineOf displayPath (encode "HcmV?d00001".toList) = "HcmV?d00001".toList :=
    lineOf_kept (c := 'H') (by decide) (by rfl) (by decide)
  have hempty : lineOf displayPath (encode []) = [] := by
    rw [lineOf_encode (by rfl), normalizeNoIndexLine_of_no_space List.not_mem_nil]
  rw [List.map_append, List.map_append, hdata]
  simp only [List.map_cons, List.map_nil, hheader, hliteral, hzero, hnothing, hempty, binaryLines,
    List.append_assoc, List.cons_append, List.nil_append]

theorem map_lineOf_text : ([GitPatch.oldName, "+++ ".toList ++ git.shownName displayPath,
      GitPatch.hunkHeader (contentLines content).1.length].map encode ++
      (contentLines content).1.map (0x2b :: ·)).map (lineOf displayPath) =
        textLines displayPath content := by
  have hold : lineOf displayPath (encode GitPatch.oldName) = GitPatch.oldName := by
    rw [lineOf_encode (by decide), normalizeNoIndexLine_oldName]
  have hnew : lineOf displayPath (encode ("+++ ".toList ++ git.shownName displayPath)) =
      GitPatch.newName displayPath := by
    rw [lineOf_encode (printable_append (by decide) (git.shownName_printable displayPath)),
      normalizeNoIndexLine_newName]
  have hhunk : lineOf displayPath (encode (GitPatch.hunkHeader (contentLines content).1.length)) =
      GitPatch.hunkHeader (contentLines content).1.length :=
    lineOf_kept (c := '@') (printable_hunkHeader _) (by rfl) (by decide)
  have hadded : ((contentLines content).1.map (0x2b :: ·)).map (lineOf displayPath) =
      (contentLines content).1.map (addedLine displayPath) := List.map_map
  rw [List.map_append, hadded]
  simp only [List.map_cons, List.map_nil, hold, hnew, hhunk, textLines]

/-- What the patch has for the lines of a diff. -/
theorem map_lineOf_newFileLines :
    (git.newFileLines displayPath content executable).map (lineOf displayPath) =
      patchLines git displayPath content executable := by
  have hdiff : lineOf displayPath (encode ("diff --git ".toList ++ git.shownNames displayPath)) =
      GitPatch.diffHeader displayPath := by
    rw [lineOf_encode (printable_append (by decide) (git.shownNames_printable displayPath)),
      normalizeNoIndexLine_diff]
  have hmode : lineOf displayPath (encode (GitPatch.modePrefix ++
      (if executable then "100755" else "100644").toList)) =
        GitPatch.modePrefix ++ (if executable then "100755" else "100644").toList :=
    lineOf_kept (c := 'n') (printable_mode executable) (by rfl) (by decide)
  have hindex : lineOf displayPath (encode (GitPatch.indexPrefix ++ git.objectId content)) =
      GitPatch.indexPrefix ++ git.objectId content :=
    lineOf_kept (c := 'i') (printable_append (by decide) (git.objectId_printable content)) (by rfl)
      (by decide)
  have hmark : lineOf displayPath (encode GitPatch.noNewline) = GitPatch.noNewline :=
    lineOf_kept (c := '\\') (by decide) (by rfl) (by decide)
  unfold Git.newFileLines patchLines
  dsimp only
  rw [List.map_append]
  refine congrArg₂ (· ++ ·) ?_ ?_
  · simp only [List.map_cons, List.map_nil, hdiff, hmode, hindex, headerLines]
  · split
    · rfl
    · split
      · exact map_lineOf_binary git displayPath content
      · rw [List.map_append, map_lineOf_text]
        refine congrArg (textLines displayPath content ++ ·) ?_
        split
        · rfl
        · exact congrArg ([·]) hmark

/-- No line of a diff has a line feed in it. -/
theorem lineFeed_not_mem_newFileLines :
    ∀ line ∈ git.newFileLines displayPath content executable, 10 ∉ line := by
  have hprintable : ∀ {lines : List Text}, (∀ line ∈ lines, line.all isPrintable = true) →
      ∀ bytes ∈ lines.map encode, 10 ∉ bytes := by
    rintro lines hlines bytes hbytes
    obtain ⟨line, hline, rfl⟩ := List.mem_map.mp hbytes
    exact lineFeed_not_mem_encode_printable (hlines line hline)
  have hadded : ∀ line ∈ (contentLines content).1.map (0x2b :: ·), 10 ∉ line := by
    rintro line hline
    obtain ⟨bytes, hbytes, rfl⟩ := List.mem_map.mp hline
    obtain ⟨flag, hflag, rfl⟩ := List.mem_map.mp hbytes
    exact fun hmem ↦ (List.mem_cons.mp hmem).elim (by decide)
      (LineStream.not_mem_of_mem_flagged hflag)
  have hheader : ∀ line ∈ ["diff --git ".toList ++ git.shownNames displayPath,
      GitPatch.modePrefix ++ (if executable then "100755" else "100644").toList,
      GitPatch.indexPrefix ++ git.objectId content], line.all isPrintable = true := by
    refine List.forall_mem_cons.mpr ⟨?_, List.forall_mem_cons.mpr ⟨printable_mode executable,
      List.forall_mem_singleton.mpr ?_⟩⟩
    · exact printable_append (by decide) (git.shownNames_printable displayPath)
    · exact printable_append (by decide) (git.objectId_printable content)
  have hbinary : ∀ line ∈ [GitPatch.binaryHeader,
      GitPatch.literalPrefix ++ (toString content.length).toList], line.all isPrintable = true :=
    List.forall_mem_cons.mpr ⟨by decide, List.forall_mem_singleton.mpr (printable_literal _)⟩
  have htext : ∀ line ∈ [GitPatch.oldName, "+++ ".toList ++ git.shownName displayPath,
      GitPatch.hunkHeader (contentLines content).1.length], line.all isPrintable = true :=
    List.forall_mem_cons.mpr ⟨by decide, List.forall_mem_cons.mpr
      ⟨printable_append (by decide) (git.shownName_printable displayPath),
        List.forall_mem_singleton.mpr (printable_hunkHeader _)⟩⟩
  unfold Git.newFileLines
  dsimp only
  refine List.forall_mem_append.mpr ⟨hprintable hheader, ?_⟩
  split
  · exact List.forall_mem_nil _
  · split
    · refine List.forall_mem_append.mpr ⟨List.forall_mem_append.mpr ⟨hprintable hbinary, ?_⟩, ?_⟩
      · exact hprintable fun line hline ↦ (git.binaryData_isData content line hline).1
      · exact hprintable (by decide)
    · refine List.forall_mem_append.mpr
        ⟨List.forall_mem_append.mpr ⟨hprintable htext, hadded⟩, ?_⟩
      split
      · exact List.forall_mem_nil _
      · exact List.forall_mem_singleton.mpr (lineFeed_not_mem_encode_printable (by decide))

/-- The diff of a file, as it goes to the patch. -/
theorem normalizeNoIndexPatch_diff :
    normalizeNoIndexPatch (fromUtf8Lossy
      (git.noIndexDiff displayPath (.file content executable))) displayPath =
        joinLines (patchLines git displayPath content executable) := by
  have hlines := lineFeed_not_mem_newFileLines git displayPath content executable
  rw [normalizeNoIndexPatch, Git.noIndexDiff, fromUtf8Lossy_unlines, rustLines_unlines,
    ← map_lineOf_newFileLines, List.map_map, List.map_map]
  · rfl
  · intro line hline
    obtain ⟨bytes, hbytes, rfl⟩ := List.mem_map.mp hline
    exact lineFeed_not_mem_fromUtf8Lossy (hlines bytes hbytes)

variable {displayPath}

theorem lineFeed_not_mem_normalizeNoIndexLine {line : Text} (hpath : '\n' ∉ displayPath)
    (hline : '\n' ∉ line) : '\n' ∉ normalizeNoIndexLine displayPath line := by
  have happend : ∀ {s t : Text}, '\n' ∉ s → '\n' ∉ t → '\n' ∉ s ++ t := fun hs ht hmem ↦
    (List.mem_append.mp hmem).elim hs ht
  unfold normalizeNoIndexLine
  split
  · exact happend (happend (happend (by decide) hpath) (by decide)) hpath
  split
  · exact happend (by decide) hpath
  split
  · exact fun hmem ↦ absurd hmem (by decide)
  · exact hline

theorem lineFeed_not_mem_lineOf {line : List UInt8} (hpath : '\n' ∉ displayPath)
    (hline : 10 ∉ line) : '\n' ∉ lineOf displayPath line := by
  refine lineFeed_not_mem_normalizeNoIndexLine hpath fun hmem ↦ ?_
  unfold stripReturn at hmem
  split at hmem
  · exact lineFeed_not_mem_fromUtf8Lossy hline (List.mem_of_mem_dropLast hmem)
  · exact lineFeed_not_mem_fromUtf8Lossy hline hmem

/-- No line of a patch has a line feed in it. -/
theorem lineFeed_not_mem_patchLines (hpath : '\n' ∉ displayPath) :
    ∀ line ∈ patchLines git displayPath content executable, '\n' ∉ line := by
  rw [← map_lineOf_newFileLines]
  intro line hline
  obtain ⟨bytes, hbytes, rfl⟩ := List.mem_map.mp hline
  exact lineFeed_not_mem_lineOf hpath
    (lineFeed_not_mem_newFileLines git displayPath content executable bytes hbytes)

end

/-! ### The lines of a content -/

section

variable (content : List UInt8)

/-- Every line of a content with its line feed is the content, up to the last line feed. -/
theorem unlines_contentLines : LineStream.unlines 10 (contentLines content).1 =
    if (contentLines content).2 ∨ content = [] then content else content ++ [10] := by
  have happend : ∀ lines : List (List UInt8), ∀ line, LineStream.unlines 10 (lines ++ [line]) =
      LineStream.unlines 10 lines ++ line ++ [10] := by
    intro lines line
    rw [LineStream.unlines, List.flatMap_append, List.flatMap_singleton, List.append_assoc]
    rfl
  unfold contentLines
  dsimp only
  rcases LineStream.exists_unlines 10 content with ⟨lines, rest, rfl, hlines, hrest⟩
  rw [LineStream.flagged_unlines hlines, List.map_append, List.map_map]
  have hmap : lines.map (Prod.fst ∘ fun line ↦ (line, true)) = lines := List.map_id _
  rw [hmap]
  rcases eq_or_ne rest [] with rfl | hne
  · rw [LineStream.flagged_nil, List.map_nil, List.append_nil, List.append_nil]
    refine (if_pos ?_).symm
    rcases lines.eq_nil_or_concat with rfl | ⟨init, last, rfl⟩
    · exact Or.inr rfl
    · refine Or.inl (decide_eq_true ?_)
      rw [List.concat_eq_append, happend, List.getLast?_concat]
  · rw [LineStream.flagged_of_not_mem hrest hne]
    refine (happend lines rest).trans (if_neg ?_).symm
    rintro (hlast | hnil)
    · have hlast := of_decide_eq_true hlast
      rw [List.getLast?_append_of_ne_nil _ hne] at hlast
      exact hrest (List.mem_of_getLast? hlast)
    · exact hne (List.append_eq_nil_iff.mp hnil).2

theorem contentLines_ne_nil {content : List UInt8} (hne : content ≠ []) :
    (contentLines content).1 ≠ [] := by
  intro hnil
  have hspec := unlines_contentLines content
  rw [hnil] at hspec
  split at hspec
  · exact hne hspec.symm
  · exact List.append_ne_nil_of_right_ne_nil _ (List.cons_ne_nil _ _) hspec.symm

theorem lineFeed_not_mem_contentLines : ∀ line ∈ (contentLines content).1, 10 ∉ line := by
  rintro line hline
  obtain ⟨flag, hflag, rfl⟩ := List.mem_map.mp hline
  exact LineStream.not_mem_of_mem_flagged hflag

end

/-! ### Lines that keep their bytes -/

/-- What stands before the name of a new file, behind the sign of an added line. -/
def headerBytes : List UInt8 := encode "++ ".toList

def nameBytes (path : List UInt8) : List UInt8 := encode "++ b/".toList ++ path

/-- A line of a content that is in the patch with all its bytes. -/
structure IsKept (path line : List UInt8) : Prop where
  isText : ∃ text, line = encode text
  no_return : line.getLast? ≠ some 13
  not_header : headerBytes <+: line → line = nameBytes path

theorem encode_append (s t : Text) : encode (s ++ t) = encode s ++ encode t := List.flatMap_append

section

variable {path : List UInt8}

theorem isPlain_lt {b : UInt8} (h : isPlain b = true) : b < 0x7f ∧ 0x20 < b := by
  unfold isPlain at h
  rw [Bool.and_eq_true, Bool.and_eq_true, Bool.and_eq_true] at h
  exact ⟨of_decide_eq_true h.1.1.2, of_decide_eq_true h.1.1.1⟩

theorem encode_ofNat {b : UInt8} (h : b < 0x7f) :
    String.utf8EncodeChar (Char.ofNat b.toNat) = [b] := by
  have hlt : b.toNat < 127 := UInt8.lt_iff_toNat_lt.mp h
  have hvalid : b.toNat.isValidChar := Or.inl (by omega)
  have hval : (Char.ofNat b.toNat).val.toNat = b.toNat := by
    rw [Char.ofNat, dif_pos hvalid]
    rfl
  unfold String.utf8EncodeChar
  rw [hval, if_pos (by omega)]
  exact congrArg ([·]) (UInt8.ofNat_toNat)

/-- A plain path is the encoding of its text. -/
theorem encode_asciiText (h : path.all isPlain = true) : encode (asciiText path) = path := by
  induction path with
  | nil => rfl
  | cons b path ih =>
    rw [List.all_cons, Bool.and_eq_true] at h
    rw [asciiText, List.map_cons, encode, List.flatMap_cons, encode_ofNat (isPlain_lt h.1).1]
    exact congrArg (b :: ·) (ih h.2)

theorem fromUtf8Lossy_ascii {x : UInt8} (hx : x < 0x80) (bytes : List UInt8) :
    fromUtf8Lossy (x :: bytes) = Char.ofNat x.toNat :: fromUtf8Lossy bytes :=
  fromUtf8Lossy_append hx [] bytes

theorem stripReturn_cons (c : Char) (hc : c ≠ '\r') (line : Text) :
    stripReturn (c :: line) = c :: stripReturn line := by
  unfold stripReturn
  rcases line with _ | ⟨d, line⟩
  · exact if_neg fun h ↦ hc (Option.some.inj h)
  · rw [List.getLast?_cons_cons]
    split <;> rfl

/-- What stands behind the sign of an added line. -/
theorem addedLine_eq (displayPath : Text) (line : List UInt8) :
    addedLine displayPath line =
      if "++ ".toList <+: stripReturn (fromUtf8Lossy line) then GitPatch.newName displayPath
      else '+' :: stripReturn (fromUtf8Lossy line) := by
  unfold addedLine lineOf
  rw [fromUtf8Lossy_ascii (by decide)]
  show normalizeNoIndexLine displayPath (stripReturn ('+' :: _)) = _
  rw [stripReturn_cons '+' (by decide)]
  unfold normalizeNoIndexLine
  rw [if_neg (not_prefix_of_head (c := 'd') (d := '+') (by rfl) (by rfl) (by decide))]
  refine if_congr ?_ rfl ?_
  · exact List.cons_prefix_cons.trans (and_iff_right rfl)
  · exact if_neg (not_prefix_of_head (c := '-') (d := '+') (by rfl) (by rfl) (by decide))

theorem return_not_mem_nameBytes (hpath : path.all isPlain = true) : 13 ∉ nameBytes path := by
  intro hmem
  rcases List.mem_append.mp hmem with hname | hplain
  · exact absurd hname (by decide)
  · exact absurd (isPlain_lt (List.all_eq_true.mp hpath _ hplain)).2 (by decide)

/-- **When a line keeps its bytes.** -/
theorem addedLine_tail_iff (hpath : path.all isPlain = true) (line : List UInt8) :
    encode (addedLine (asciiText path) line).tail = line ↔ IsKept path line := by
  have hname : encode (GitPatch.newName (asciiText path)).tail = nameBytes path := by
    show encode ("++ b/".toList ++ asciiText path) = _
    rw [encode_append, encode_asciiText hpath]
    rfl
  have hheader : ∀ text : Text, "++ ".toList <+: text → headerBytes <+: encode text := by
    rintro _ ⟨rest, rfl⟩
    rw [encode_append]
    exact List.prefix_append _ _
  have hreturn : ∀ text : Text, text.getLast? = some '\r' → (encode text).getLast? = some 13 := by
    intro text hlast
    obtain ⟨init, rfl⟩ := List.getLast?_eq_some_iff.mp hlast
    rw [encode_append]
    exact List.getLast?_concat
  constructor
  · intro h
    have htext : fromUtf8Lossy line = (addedLine (asciiText path) line).tail := by
      have hround := fromUtf8Lossy_encode (addedLine (asciiText path) line).tail
      rwa [show (addedLine (asciiText path) line).tail.flatMap String.utf8EncodeChar = line from h]
        at hround
    have hnot : (fromUtf8Lossy line).getLast? ≠ some '\r' := by
      intro hlast
      rw [addedLine_eq, stripReturn, if_pos hlast] at htext
      split at htext
      · have hmem : 13 ∈ nameBytes path := by
          rw [← hname, ← htext]
          exact List.mem_of_getLast? (hreturn _ hlast)
        exact return_not_mem_nameBytes hpath hmem
      · have hne : fromUtf8Lossy line ≠ [] := fun hnil ↦ by rw [hnil] at hlast; cases hlast
        exact absurd (congrArg List.length htext) (Nat.ne_of_gt (by
          rw [List.tail_cons, List.length_dropLast]
          exact Nat.sub_lt (List.length_pos_iff.mpr hne) Nat.one_pos))
    refine ⟨⟨_, h.symm⟩, fun hlast ↦ ?_, ?_⟩
    · obtain ⟨init, rfl⟩ := List.getLast?_eq_some_iff.mp hlast
      rw [fromUtf8Lossy_append (by decide)] at hnot
      exact hnot List.getLast?_concat
    · rintro ⟨rest, rfl⟩
      have hstarts : "++ ".toList <+: stripReturn (fromUtf8Lossy (headerBytes ++ rest)) := by
        rw [stripReturn, if_neg hnot]
        show _ <+: fromUtf8Lossy (0x2b :: 0x2b :: 0x20 :: rest)
        rw [fromUtf8Lossy_ascii (by decide), fromUtf8Lossy_ascii (by decide),
          fromUtf8Lossy_ascii (by decide)]
        exact List.prefix_append "++ ".toList _
      rw [addedLine_eq, if_pos hstarts] at h
      exact h.symm.trans hname
  · rintro ⟨⟨text, rfl⟩, hlast, hno⟩
    have hstrip : stripReturn text = text := if_neg fun h ↦ hlast (hreturn text h)
    have hdecode : fromUtf8Lossy (encode text) = text := fromUtf8Lossy_encode text
    rw [addedLine_eq, hdecode, hstrip]
    split
    · next hstarts => exact hname.trans (hno (hheader text hstarts)).symm
    · rfl

theorem head?_addedLine (displayPath : Text) (line : List UInt8) :
    (addedLine displayPath line).head? = some '+' := by
  rw [addedLine_eq]
  split <;> rfl

end

/-! ### Lines that are joined -/

section

variable {init : List Text} {last : Text} (hinit : ∀ line ∈ init, '\n' ∉ line)

theorem joinLines_concat (init : List Text) (last : Text) :
    joinLines (init ++ [last]) = LineStream.unlines '\n' init ++ last := by
  induction init with
  | nil => rfl
  | cons line init ih =>
    rw [LineStream.unlines_cons, List.append_assoc, List.cons_append, List.cons_append, ← ih]
    rcases init with _ | ⟨line', init⟩ <;> rfl

theorem endLine_line {init : List Text} (hlast : '\n' ∉ last) (hne : last ≠ []) :
    endLine (joinLines (init ++ [last])) = LineStream.unlines '\n' init ++ last ++ ['\n'] := by
  rw [joinLines_concat]
  refine if_pos ⟨List.append_ne_nil_of_right_ne_nil _ hne, fun h ↦ hlast ?_⟩
  rw [List.getLast?_append_of_ne_nil _ hne] at h
  exact List.mem_of_getLast? h

theorem endLine_unlines (init : List Text) :
    endLine (LineStream.unlines '\n' init) = LineStream.unlines '\n' init := by
  refine if_neg fun h ↦ ?_
  rcases init.eq_nil_or_concat with rfl | ⟨init, line, rfl⟩
  · exact h.1 rfl
  · refine h.2 ?_
    rw [List.concat_eq_append, LineStream.unlines, List.flatMap_append, List.flatMap_singleton,
      ← List.append_assoc, List.getLast?_concat]

include hinit

theorem flagged_joinLines (hlast : '\n' ∉ last) (hne : last ≠ []) :
    LineStream.flagged '\n' (joinLines (init ++ [last])) =
      init.map (·, true) ++ [(last, false)] := by
  rw [joinLines_concat, LineStream.flagged_unlines hinit, LineStream.flagged_of_not_mem hlast hne]

theorem flagged_endLine (hlast : '\n' ∉ last) (hne : last ≠ []) (t : Text) :
    LineStream.flagged '\n' (endLine (joinLines (init ++ [last])) ++ t) =
      init.map (·, true) ++ (last, true) :: LineStream.flagged '\n' t := by
  rw [endLine_line hlast hne, List.append_assoc, List.append_assoc,
    LineStream.flagged_unlines hinit]
  exact congrArg (init.map (·, true) ++ ·) (LineStream.flagged_line hlast)

end

/-! ### What is read -/

/-- What git creates from the lines of a file, with more of a patch behind them and at its end. -/
structure Reads (decode : List Text → Option (List UInt8)) (lines : List Text)
    (closed last : Option GitPatch.Creation) : Prop where
  closed : ∃ flags ≠ [],
    (∀ t, LineStream.flagged '\n' (endLine (joinLines lines) ++ t) =
      flags ++ LineStream.flagged '\n' t) ∧
    (∀ rest, GitPatch.StartsFile rest →
      GitPatch.creation decode (flags ++ rest) = closed.map (·, rest)) ∧
    ∀ rest, GitPatch.StartsFile (flags ++ rest)
  last : GitPatch.creation decode (LineStream.flagged '\n' (joinLines lines)) = last.map (·, [])
  starts : GitPatch.StartsFile (LineStream.flagged '\n' (joinLines lines))
  not_empty : LineStream.flagged '\n' (joinLines lines) ≠ []

section

variable (git : Git) (displayPath : Text) (content : List UInt8) (executable : Bool)

/-- The content of the file that is created. -/
@[grind =] def writtenContent : List UInt8 :=
  if content = [] then []
  else GitPatch.addedContent ((contentLines content).1.map (addedLine displayPath))
    (!(contentLines content).2)

/-- No file is created from the hunks of a binary file. -/
def isBinaryFile : Bool := !content.isEmpty && git.isBinary content

def closedCreation : Option GitPatch.Creation :=
  if isBinaryFile git content then none else some ⟨displayPath, writtenContent displayPath content⟩

/-- At the end of the patch a line without its line feed is lost. -/
def lastCreation : Option GitPatch.Creation :=
  if (contentLines content).2 then none else closedCreation git displayPath content

variable {git displayPath content executable}

variable (git displayPath content executable) in
/-- A file is read from its header and what stands behind the `index` line. -/
theorem creation_headerLines (b : Bool) (rest : List Line) :
    GitPatch.creation git.decode
      ((GitPatch.diffHeader displayPath, true) ::
        (GitPatch.modePrefix ++ (if executable then "100755" else "100644").toList, true) ::
        (GitPatch.indexPrefix ++ git.objectId content, b) :: rest) =
      (GitPatch.fileHunk git.decode displayPath b rest).map fun hunk ↦
        (⟨displayPath, hunk.1⟩, hunk.2) :=
  GitPatch.creation_eq (List.prefix_append _ _) (List.prefix_append _ _) b rest

/-- A file whose last line is not empty. -/
theorem reads_of_line {decode : List Text → Option (List UInt8)} {more : List Text} {last : Text}
    {closed lastRead : Option GitPatch.Creation}
    (hlines : ∀ line ∈ GitPatch.diffHeader displayPath :: more ++ [last], '\n' ∉ line)
    (hne : last ≠ [])
    (hclosed : ∀ rest, GitPatch.StartsFile rest → GitPatch.creation decode
      ((GitPatch.diffHeader displayPath :: more).map (·, true) ++ (last, true) :: rest) =
        closed.map (·, rest))
    (hlast : GitPatch.creation decode ((GitPatch.diffHeader displayPath :: more).map (·, true) ++
      [(last, false)]) = lastRead.map (·, [])) :
    Reads decode (GitPatch.diffHeader displayPath :: more ++ [last]) closed lastRead := by
  obtain ⟨hinit, hend⟩ := List.forall_mem_append.mp hlines
  have hend := List.forall_mem_singleton.mp hend
  have hjoin := flagged_joinLines hinit hend hne
  refine ⟨⟨(GitPatch.diffHeader displayPath :: more).map (·, true) ++ [(last, true)],
    List.cons_ne_nil _ _, fun t ↦ ?_, fun rest hrest ↦ ?_, fun rest ↦ ?_⟩, ?_, ?_, ?_⟩
  · rw [flagged_endLine hinit hend hne, List.append_assoc]
    rfl
  · rw [List.append_assoc]
    exact hclosed rest hrest
  · exact GitPatch.StartsFile.cons _ _ _
  · rw [hjoin]
    exact hlast
  · rw [hjoin]
    exact GitPatch.StartsFile.cons _ _ _
  · rw [hjoin]
    exact List.cons_ne_nil _ _

/-- A file whose last line is empty, and lost. -/
theorem reads_of_empty_line {decode : List Text → Option (List UInt8)} {more : List Text}
    (hlines : ∀ line ∈ GitPatch.diffHeader displayPath :: more, '\n' ∉ line)
    (hnone : ∀ rest, GitPatch.StartsFile rest → GitPatch.creation decode
      ((GitPatch.diffHeader displayPath :: more).map (·, true) ++ rest) = none) :
    Reads decode (GitPatch.diffHeader displayPath :: more ++ [[]]) none none := by
  have hjoin : joinLines (GitPatch.diffHeader displayPath :: more ++ [[]]) =
      LineStream.unlines '\n' (GitPatch.diffHeader displayPath :: more) := by
    rw [joinLines_concat, List.append_nil]
  have hflagged := LineStream.flagged_unlines hlines []
  rw [List.append_nil, LineStream.flagged_nil, List.append_nil] at hflagged
  refine ⟨⟨(GitPatch.diffHeader displayPath :: more).map (·, true), List.cons_ne_nil _ _,
    fun t ↦ ?_, hnone, fun rest ↦ ?_⟩, ?_, ?_, ?_⟩
  · rw [hjoin, endLine_unlines, LineStream.flagged_unlines hlines]
  · exact GitPatch.StartsFile.cons _ _ _
  · have hend := hnone [] GitPatch.StartsFile.nil
    rw [List.append_nil] at hend
    rw [hjoin, hflagged, hend]
    rfl
  · rw [hjoin, hflagged]
    exact GitPatch.StartsFile.cons _ _ _
  · rw [hjoin, hflagged]
    exact List.cons_ne_nil _ _

theorem reads_empty (hpath : '\n' ∉ displayPath) :
    Reads git.decode (patchLines git displayPath [] executable)
      (closedCreation git displayPath []) (lastCreation git displayPath []) := by
  have hlines := lineFeed_not_mem_patchLines git [] executable hpath
  show Reads git.decode ([GitPatch.diffHeader displayPath,
    GitPatch.modePrefix ++ (if executable then "100755" else "100644").toList] ++
      [GitPatch.indexPrefix ++ git.objectId []]) _ _
  refine reads_of_line hlines (List.cons_ne_nil _ _) (fun rest hrest ↦ ?_) ?_
  · refine (creation_headerLines git displayPath [] executable true rest).trans ?_
    rw [GitPatch.fileHunk_startsFile hrest]
    rfl
  · exact creation_headerLines git displayPath [] executable false []

theorem reads_binary (hpath : '\n' ∉ displayPath) (hne : content ≠ [])
    (hbinary : git.isBinary content = true) :
    Reads git.decode (patchLines git displayPath content executable) none none := by
  have hlines := lineFeed_not_mem_patchLines git content executable hpath
  have hsplit : patchLines git displayPath content executable =
      headerLines git displayPath content executable ++ binaryLines git content ++ [[]] := by
    rw [patchLines, if_neg hne, if_pos hbinary, List.append_assoc]
  rw [hsplit] at hlines ⊢
  refine reads_of_empty_line (fun line hline ↦ hlines line (List.mem_append_left _ hline)) ?_
  intro rest hrest
  have hdata : ∀ line ∈ git.binaryData content, GitPatch.isData (line, true) = true := by
    intro line hline
    obtain ⟨-, hnil, hspace⟩ := git.binaryData_isData content line hline
    unfold GitPatch.isData
    rw [List.isEmpty_eq_false_iff.mpr hnil,
      Bool.eq_false_iff.mpr fun h ↦ hspace (List.contains_iff_mem.mp h)]
    rfl
  have hreverse : GitPatch.binaryHunk ((GitPatch.literalPrefix ++ ['0'], true) ::
      (["HcmV?d00001".toList].map (·, true) ++ rest)) = none :=
    GitPatch.binaryHunk_unended (List.forall_mem_singleton.mpr (by decide)) hrest
  have hforward := GitPatch.binaryHunk_ended hdata
    (List.prefix_append GitPatch.literalPrefix (toString content.length).toList)
    ((GitPatch.literalPrefix ++ ['0'], true) :: (["HcmV?d00001".toList].map (·, true) ++ rest))
  have hhunks : GitPatch.binaryHunks git.decode
      ((GitPatch.literalPrefix ++ (toString content.length).toList, true) ::
        ((git.binaryData content).map (·, true) ++ ([], true) ::
          (GitPatch.literalPrefix ++ ['0'], true) ::
            (["HcmV?d00001".toList].map (·, true) ++ rest))) = none := by
    rw [GitPatch.binaryHunks, hforward]
    dsimp only
    rw [git.decode_binaryData, hreverse]
  have hflags : (headerLines git displayPath content executable ++ binaryLines git content).map
      (·, true) ++ rest =
        (GitPatch.diffHeader displayPath, true) ::
        (GitPatch.modePrefix ++ (if executable then "100755" else "100644").toList, true) ::
        (GitPatch.indexPrefix ++ git.objectId content, true) :: (GitPatch.binaryHeader, true) ::
        (GitPatch.literalPrefix ++ (toString content.length).toList, true) ::
        ((git.binaryData content).map (·, true) ++ ([], true) ::
          (GitPatch.literalPrefix ++ ['0'], true) ::
            (["HcmV?d00001".toList].map (·, true) ++ rest)) := by
    simp only [headerLines, binaryLines, List.map_append, List.map_cons, List.map_nil,
      List.append_assoc, List.cons_append, List.nil_append]
  refine (congrArg _ hflags).trans
    ((creation_headerLines git displayPath content executable true _).trans ?_)
  rw [GitPatch.fileHunk_binary, hhunks]
  rfl

theorem addedLines_head (displayPath : Text) (content : List UInt8) :
    ∀ line ∈ (contentLines content).1.map (addedLine displayPath), line.head? = some '+' := by
  intro line hline
  obtain ⟨bytes, -, rfl⟩ := List.mem_map.mp hline
  exact head?_addedLine displayPath bytes

variable (git displayPath content executable) in
/-- The flags of a text file's lines, up to the added ones. -/
theorem creation_textLines (flags : List Line) :
    GitPatch.creation git.decode
      ((headerLines git displayPath content executable ++ [GitPatch.oldName,
        GitPatch.newName displayPath,
          GitPatch.hunkHeader (contentLines content).1.length]).map (·, true) ++ flags) =
      (GitPatch.textHunk displayPath ((GitPatch.newName displayPath, true) ::
        (GitPatch.hunkHeader ((contentLines content).1.map (addedLine displayPath)).length, true) ::
          flags)).map fun hunk ↦ (⟨displayPath, hunk.1⟩, hunk.2) := by
  rw [List.length_map, ← GitPatch.fileHunk_text]
  exact creation_headerLines git displayPath content executable true _

theorem reads_marked (hpath : '\n' ∉ displayPath) (hne : content ≠ [])
    (hbinary : ¬ git.isBinary content = true) (hmark : (contentLines content).2 = false) :
    Reads git.decode (patchLines git displayPath content executable)
      (some ⟨displayPath, writtenContent displayPath content⟩)
      (some ⟨displayPath, writtenContent displayPath content⟩) := by
  have hlines := lineFeed_not_mem_patchLines git content executable hpath
  have hadded : (contentLines content).1.map (addedLine displayPath) ≠ [] := fun h ↦
    contentLines_ne_nil hne (List.map_eq_nil_iff.mp h)
  have hsplit : patchLines git displayPath content executable =
      headerLines git displayPath content executable ++ textLines displayPath content ++
        [GitPatch.noNewline] := by
    rw [patchLines, if_neg hne, if_neg hbinary, hmark, List.append_assoc]
    rfl
  have hwritten : writtenContent displayPath content =
      GitPatch.addedContent ((contentLines content).1.map (addedLine displayPath)) true := by
    rw [writtenContent, if_neg hne, hmark]
    rfl
  have hcreation : ∀ (b : Bool) (rest : List Line), GitPatch.creation git.decode
      ((headerLines git displayPath content executable ++ textLines displayPath content).map
        (·, true) ++ (GitPatch.noNewline, b) :: rest) =
          some (⟨displayPath, writtenContent displayPath content⟩, rest) := by
    intro b rest
    rw [textLines, ← List.append_assoc, List.map_append, List.append_assoc, creation_textLines,
      GitPatch.textHunk_marked (addedLines_head displayPath content) hadded, hwritten]
    rfl
  rw [hsplit] at hlines ⊢
  exact reads_of_line hlines (by decide) (fun rest _ ↦ hcreation true rest) (hcreation false [])

theorem reads_ended (hpath : '\n' ∉ displayPath) (hne : content ≠ [])
    (hbinary : ¬ git.isBinary content = true) (hend : (contentLines content).2 = true) :
    Reads git.decode (patchLines git displayPath content executable)
      (some ⟨displayPath, writtenContent displayPath content⟩) none := by
  have hlines := lineFeed_not_mem_patchLines git content executable hpath
  have hhead := addedLines_head displayPath content
  have hadded : (contentLines content).1.map (addedLine displayPath) ≠ [] := fun h ↦
    contentLines_ne_nil hne (List.map_eq_nil_iff.mp h)
  have hwritten : writtenContent displayPath content =
      GitPatch.addedContent ((contentLines content).1.map (addedLine displayPath)) false := by
    rw [writtenContent, if_neg hne, hend]
    rfl
  have hsplit : patchLines git displayPath content executable =
      headerLines git displayPath content executable ++ [GitPatch.oldName,
        GitPatch.newName displayPath, GitPatch.hunkHeader (contentLines content).1.length] ++
        (contentLines content).1.map (addedLine displayPath) := by
    rw [patchLines, if_neg hne, if_neg hbinary, hend, if_pos rfl, List.append_nil, textLines,
      List.append_assoc]
  rw [hsplit] at hlines ⊢
  generalize hall : (contentLines content).1.map (addedLine displayPath) = added at *
  rcases List.eq_nil_or_concat' added with rfl | ⟨init, last, rfl⟩
  · exact absurd rfl hadded
  have hlast := hhead last (List.mem_append_right _ (List.mem_singleton_self _))
  have hinit : ∀ line ∈ init, line.head? = some '+' := fun line hline ↦
    hhead line (List.mem_append_left _ hline)
  rw [← List.append_assoc] at hlines ⊢
  refine reads_of_line hlines (fun hnil ↦ ?_) (fun rest hrest ↦ ?_) ?_
  · rw [hnil] at hlast
    cases hlast
  · have hflags : init.map (·, true) ++ (last, true) :: rest =
        (init ++ [last]).map (·, true) ++ rest := by
      rw [List.map_append, List.append_assoc]
      rfl
    have htext := creation_textLines git displayPath content executable
      ((init ++ [last]).map (·, true) ++ rest)
    rw [hall, GitPatch.textHunk_whole hhead hadded hrest, ← hflags] at htext
    rw [hwritten]
    exact htext
  · have htext := creation_textLines git displayPath content executable
      (init.map (·, true) ++ [(last, false)])
    rw [GitPatch.textHunk_unended hinit hlast] at htext
    exact htext

/-- **What git creates from the patch of a file.** -/
theorem reads_patchLines (git : Git) (content : List UInt8) (executable : Bool)
    (hpath : '\n' ∉ displayPath) :
    Reads git.decode (patchLines git displayPath content executable)
      (closedCreation git displayPath content) (lastCreation git displayPath content) := by
  rcases eq_or_ne content [] with rfl | hne
  · exact reads_empty hpath
  have hempty : content.isEmpty = false := List.isEmpty_eq_false_iff.mpr hne
  have hkind : isBinaryFile git content = git.isBinary content := by
    rw [isBinaryFile, hempty]
    rfl
  rw [lastCreation, closedCreation, hkind]
  rcases Bool.eq_false_or_eq_true (git.isBinary content) with hbinary | hbinary
  · rw [if_pos hbinary, ite_self]
    exact reads_binary hpath hne hbinary
  rw [if_neg (Bool.eq_false_iff.mp hbinary)]
  rcases Bool.eq_false_or_eq_true (contentLines content).2 with hend | hend
  · rw [if_pos hend]
    exact reads_ended hpath hne (Bool.eq_false_iff.mp hbinary) hend
  · rw [if_neg (Bool.eq_false_iff.mp hend)]
    exact reads_marked hpath hne (Bool.eq_false_iff.mp hbinary) hend

theorem lineFeed_not_mem_asciiText {path : List UInt8} (hpath : path.all isPlain = true) :
    '\n' ∉ asciiText path := by
  intro hmem
  obtain ⟨b, hb, hchar⟩ := List.mem_map.mp hmem
  have hfeed : b = 10 := UInt8.toNat_inj.mp (toNat_lineFeed_of_ofNat hchar)
  have hplain := List.all_eq_true.mp hpath b hb
  rw [hfeed] at hplain
  exact absurd hplain (by decide)

theorem unlines_eq_concat {lines : List (List UInt8)} (hne : lines ≠ []) :
    ∃ init, LineStream.unlines 10 lines = init ++ [10] := by
  rcases List.eq_nil_or_concat' lines with rfl | ⟨init, last, rfl⟩
  · exact absurd rfl hne
  · refine ⟨LineStream.unlines 10 init ++ last, ?_⟩
    rw [LineStream.unlines, List.flatMap_append, List.flatMap_singleton, List.append_assoc]
    rfl

/-- **When a file keeps its content.** -/
theorem writtenContent_iff {path : List UInt8} (hpath : path.all isPlain = true)
    (content : List UInt8) : writtenContent (asciiText path) content = content ↔
      ∀ line ∈ (contentLines content).1, IsKept path line := by
  rcases eq_or_ne content [] with rfl | hne
  · exact ⟨fun _ ↦ List.forall_mem_nil _, fun _ ↦ rfl⟩
  have hspec := unlines_contentLines content
  have hlines := contentLines_ne_nil hne
  have hfeed := lineFeed_not_mem_contentLines content
  rw [writtenContent, if_neg hne]
  generalize (contentLines content).1 = lines at *
  have hbytes : ((lines.map (addedLine (asciiText path))).flatMap fun line ↦
      encode line.tail ++ [10]) =
        LineStream.unlines 10
          (lines.map fun line ↦ encode (addedLine (asciiText path) line).tail) := by
    rw [LineStream.unlines, List.flatMap_map, List.flatMap_map]
  have hadded : ∀ line ∈ lines.map (fun line ↦ encode (addedLine (asciiText path) line).tail),
      10 ∉ line := by
    intro bytes hmem
    obtain ⟨line, hline, rfl⟩ := List.mem_map.mp hmem
    refine lineFeed_not_mem_encode fun hfeed' ↦ ?_
    refine lineFeed_not_mem_lineOf (lineFeed_not_mem_asciiText hpath) ?_
      (List.mem_of_mem_tail hfeed')
    exact fun hmem ↦ (List.mem_cons.mp hmem).elim (by decide) (hfeed line hline)
  have hsame : GitPatch.addedContent (lines.map (addedLine (asciiText path)))
      (!(contentLines content).2) = content ↔
        LineStream.unlines 10 (lines.map fun line ↦ encode (addedLine (asciiText path) line).tail) =
          LineStream.unlines 10 lines := by
    rw [GitPatch.addedContent, hbytes, hspec]
    rcases Bool.eq_false_or_eq_true (contentLines content).2 with hend | hend
    · rw [hend, if_pos (Or.inl rfl)]
      rfl
    · rw [hend, if_neg (not_or.mpr ⟨Bool.false_ne_true, hne⟩)]
      -- Both end with the line feed that the mark takes away.
      obtain ⟨init, hinit⟩ := unlines_eq_concat
        (mt List.map_eq_nil_iff.mp hlines :
          lines.map (fun line ↦ encode (addedLine (asciiText path) line).tail) ≠ [])
      rw [hinit, if_pos (by rfl), List.dropLast_concat]
      exact (List.append_left_inj [10]).symm
  rw [hsame]
  constructor
  · intro h line hline
    have hmap := LineStream.unlines_inj hadded hfeed h
    exact (addedLine_tail_iff hpath line).mp
      (List.map_inj_left.mp (hmap.trans (List.map_id lines).symm) line hline)
  · intro h
    refine congrArg _ ((List.map_congr_left fun line hline ↦ ?_).trans (List.map_id lines))
    exact (addedLine_tail_iff hpath line).mpr (h line hline)

end

end MultAIplayer.Native
