import MultAIplayer.Lib.CommonMark
import MultAIplayer.Lib.LineStream
import MultAIplayer.Lib.Text
import Mathlib.Algebra.GroupWithZero.Nat

/-!
# Markdown exports

The documents that carry code: the project context, the summary of a diff and the output of a
terminal. Texts are lists of characters.

Of a room the documents show the name and the project path. The counts of a changed file are those
of `git`, the exit status is an integer.
-/

namespace MultAIplayer.Desktop.Markdown

open CommonMark (Chars backtick)

/-! ### Texts -/

def isEscaped (c : Char) : Bool :=
  c ∈ ['\\', backtick, '*', '_', '{', '}', '[', ']', '(', ')', '#', '+', '.', '!', '|', '-']

def escapeMarkdown (value : Chars) : Chars :=
  value.flatMap fun c ↦ if isEscaped c then ['\\', c] else [c]

def joinLines (parts : List Chars) : Chars := ['\n'].intercalate parts

/-- The longest run of at least `least` backticks, or `start`. -/
def longestRun (least start : ℕ) (value : Chars) : ℕ :=
  ((CommonMark.backtickRuns 0 value).filter (least ≤ ·)).foldl max start

def fencedCode (value language : Chars) : Chars :=
  let fence := List.replicate (longestRun 3 2 value + 1) backtick
  joinLines [fence ++ language, value, fence]

/-- `replace(/\r\n?|\n/g, " ")`. -/
def spaceBreaks : Chars → Chars
  | [] => []
  | '\r' :: '\n' :: value => ' ' :: spaceBreaks value
  | c :: value => (if CommonMark.isBreak c then ' ' else c) :: spaceBreaks value

def inlineCode (value : Chars) : Chars :=
  let normalized := spaceBreaks value
  let fence := List.replicate (longestRun 1 0 normalized + 1) backtick
  let needsPadding := normalized.head? = some backtick ∨ normalized.getLast? = some backtick ∨
    normalized.head? = some ' ' ∨ normalized.getLast? = some ' '
  let content := if needsPadding then ' ' :: normalized ++ [' '] else normalized
  fence ++ content ++ fence

/-- Runs of line feeds cut to three, when `n` of them have gone before. -/
@[grind =] def cutFeeds : ℕ → Chars → Chars
  | _, [] => []
  | n, c :: text =>
    if c = '\n' then if n < 3 then c :: cutFeeds (n + 1) text else cutFeeds n text
    else c :: cutFeeds 0 text

def trimEnd (text : Chars) : Chars := text.rdropWhile Text.isWhiteSpace

def compactMarkdown (parts : List Chars) : Chars := trimEnd (cutFeeds 0 (joinLines parts))

def showNumber (n : ℕ) : Chars := (toString n).toList

/-- A number with one decimal, of tenths. -/
def showTenths (tenths : ℕ) : Chars :=
  showNumber (tenths / 10) ++ '.' :: showNumber (tenths % 10)

def formatBytes (bytes : ℕ) : Chars :=
  if bytes < 1024 then showNumber bytes ++ " B".toList
  else if bytes < 1024 * 1024 then showNumber ((2 * bytes + 1024) / 2048) ++ " KB".toList
  else showTenths ((20 * bytes + 1024 * 1024) / (2 * 1024 * 1024)) ++ " MB".toList

def encodedBytes (value : Chars) : ℕ := (value.map Char.utf8Size).sum

/-! ### Parts -/

structure ChangedFile where
  path : Chars
  status : Chars
  added : Option ℕ
  removed : Option ℕ

structure SelectedFile where
  path : Chars
  content : Chars
  truncated : Bool

structure SelectedDiff where
  path : Chars
  diff : Chars

structure TerminalSnapshot where
  name : Chars
  command : Chars
  cwd : Chars
  running : Bool
  exitStatus : Option ℤ

structure TerminalLine where
  stream : Chars
  text : Chars

structure Room where
  name : Chars
  projectPath : Chars

def sensitiveWarningBlock (risks : List Chars) : List Chars :=
  let uniqueRisks := risks.eraseDups.filter fun risk ↦ !risk.isEmpty
  if uniqueRisks.isEmpty then []
  else ["> [!WARNING]".toList, "> This export may contain sensitive material: ".toList ++
    ", ".toList.intercalate (uniqueRisks.map escapeMarkdown) ++
      ". Review before sharing outside the room.".toList]

def changedFileLine (suffix : ChangedFile → Chars) (file : ChangedFile) : Chars :=
  "- ".toList ++ inlineCode file.path ++ suffix file

def projectFileSuffix (file : ChangedFile) : Chars :=
  " (".toList ++ escapeMarkdown file.status ++ ")".toList ++
    if file.added.isSome ∨ file.removed.isSome then
      " (+".toList ++ showNumber (file.added.getD 0) ++ "/-".toList ++
        showNumber (file.removed.getD 0) ++ ")".toList
    else []

def diffFileSuffix (file : ChangedFile) : Chars :=
  " (".toList ++ escapeMarkdown file.status ++ ", +".toList ++ showNumber (file.added.getD 0) ++
    "/-".toList ++ showNumber (file.removed.getD 0) ++ ")".toList

def changedFilesPart (suffix : ChangedFile → Chars) (files : List ChangedFile) : Chars :=
  let changedFiles := joinLines (files.map (changedFileLine suffix))
  if changedFiles.isEmpty then "- No changed files reported.".toList else changedFiles

def trim (text : Chars) : Chars := trimEnd (text.dropWhile Text.isWhiteSpace)

/-- A diff that is not blank. -/
def shownDiff (selectedDiff : Option SelectedDiff) : Option SelectedDiff :=
  selectedDiff.filter fun diff ↦ !(trim diff.diff).isEmpty

/-! ### Terminal output -/

def escape : Char := '\x1b'

def bell : Char := '\x07'

def isBetween (low high : ℕ) (c : Char) : Bool := low ≤ c.toNat && c.toNat ≤ high

/-- What stands behind the first end of a string, `ESC \`, if no character before it is `barred`. -/
def behindEnd (barred : Char → Bool) : Chars → Option Chars
  | [] => none
  | [_] => none
  | c :: d :: text =>
    if c = escape ∧ d = '\\' then some text
    else if barred c then none
    else behindEnd barred (d :: text)

/-- What stands behind the last end of a string. -/
def behindLastEnd : Chars → Option Chars
  | [] => none
  | [_] => none
  | c :: d :: text =>
    match behindLastEnd (d :: text) with
    | some rest => some rest
    | none => if c = escape ∧ d = '\\' then some text else none

/-- The rest of a control sequence behind its introducer. -/
def behindSequence (text : Chars) : Option Chars :=
  match (text.dropWhile (isBetween 0x30 0x3f)).dropWhile (isBetween 0x20 0x2f) with
  | c :: rest => if isBetween 0x40 0x7e c then some rest else none
  | [] => none

/-- Every match of a pattern removed, from the left, in a text of at most `n` characters. -/
def removeAll (pattern : Chars → Option Chars) : ℕ → Chars → Chars
  | 0, _ => []
  | _, [] => []
  | n + 1, c :: text =>
    match pattern (c :: text) with
    | some rest => removeAll pattern n rest
    | none => c :: removeAll pattern n text

def remove (pattern : Chars → Option Chars) (text : Chars) : Chars :=
  removeAll pattern text.length text

/-- The end of an operating system command is the first bell, else the last `ESC \`. -/
def operatingSystemCommand : Chars → Option Chars
  | c :: ']' :: text =>
    if c ≠ escape then none
    else if bell ∈ text then some ((text.dropWhile (· ≠ bell)).tail)
    else behindLastEnd text
  | _ => none

def controlSequence (introducer : Char) : Chars → Option Chars
  | c :: '[' :: text => if c = introducer then behindSequence text else none
  | _ => none

def isLineTerminator (c : Char) : Bool := c ∈ ['\n', '\r', '\u2028', '\u2029']

def controlString : Chars → Option Chars
  | c :: d :: text =>
    if c = escape ∧ d ∈ ['P', 'X', '^', '_'] then behindEnd isLineTerminator text else none
  | _ => none

def shortSequence : Chars → Option Chars
  | c :: d :: text =>
    if c = escape ∧ (isBetween 0x40 0x5a d ∨ isBetween 0x5c 0x5f d) then some text else none
  | _ => none

def isControl (c : Char) : Bool :=
  isBetween 0x00 0x08 c || c = '\x0b' || c = '\x0c' || isBetween 0x0e 0x1f c || c = '\x7f'

def stripTerminalControlSequences (value : Chars) : Chars :=
  let value := remove operatingSystemCommand value
  let value := remove (controlSequence escape) value
  let value := remove (controlSequence '\uFFFD') value
  let value := remove controlString value
  let value := remove shortSequence value
  (value.filter fun c ↦ c ≠ '\uFFFD').filter fun c ↦ !isControl c

def isRetainableTerminalLine (line : TerminalLine) : Bool := line.stream ≠ "stdin".toList

def isVisible (line : TerminalLine) : Bool :=
  isRetainableTerminalLine line && !(line.stream = "system".toList &&
    ["$ exec zsh -f".toList, "$SHELL -l".toList].contains (trim line.text))

def terminalOutput (lines : List TerminalLine) : Chars :=
  let visibleLines := lines.filter isVisible
  if visibleLines.isEmpty then "(No terminal output.)".toList
  else joinLines (visibleLines.map fun line ↦
    let text := stripTerminalControlSequences line.text
    if line.stream = "stdout".toList then text
    else "[".toList ++ line.stream ++ "] ".toList ++ text)

/-! ### Documents -/

def selectedDiffSection (selectedDiff : Option SelectedDiff) : List Chars :=
  match shownDiff selectedDiff with
  | some diff => ["## Diff: ".toList ++ escapeMarkdown diff.path, [],
      fencedCode diff.diff "diff".toList, []]
  | none => []

def selectedFileSection (selectedFile : Option SelectedFile) : List Chars :=
  match selectedFile with
  | some file => ["## ".toList ++ escapeMarkdown file.path, [],
      if file.truncated then
        "> Preview truncated at ".toList ++ formatBytes (encodedBytes file.content) ++ ".".toList
      else [], [], fencedCode file.content []]
  | none => ["## Selected File".toList, [], "No file selected.".toList]

def buildProjectMarkdown (roomName projectPath : Chars) (files : List ChangedFile)
    (selectedFile : Option SelectedFile) (selectedDiff : Option SelectedDiff)
    (sensitiveRisks : List Chars) : Chars :=
  compactMarkdown (["# ".toList ++ escapeMarkdown roomName ++ " Project Context".toList, [],
    "Project: ".toList ++ inlineCode projectPath, []] ++ sensitiveWarningBlock sensitiveRisks ++
    [[], "## Changed Files".toList, changedFilesPart projectFileSuffix files, []] ++
    selectedDiffSection selectedDiff ++ selectedFileSection selectedFile)

def buildDiffSummaryMarkdown (room : Room) (branch : Chars) (files : List ChangedFile)
    (selectedDiff : Option SelectedDiff) (sensitiveRisks : List Chars) : Chars :=
  compactMarkdown (["# ".toList ++ escapeMarkdown room.name ++ " Diff Summary".toList, [],
    "Project: ".toList ++ inlineCode room.projectPath, "Branch: ".toList ++ escapeMarkdown branch,
    []] ++ sensitiveWarningBlock sensitiveRisks ++
    [[], "## Changed Files".toList, changedFilesPart diffFileSuffix files, []] ++
    match shownDiff selectedDiff with
      | some diff => ["## Selected Diff: ".toList ++ escapeMarkdown diff.path, [],
          fencedCode diff.diff "diff".toList]
      | none => ["## Selected Diff".toList, [], "No changed file selected.".toList])

def terminalSection : Option TerminalSnapshot → List Chars
  | some terminal => ["Command: ".toList ++ inlineCode terminal.command,
      "Working directory: ".toList ++ inlineCode terminal.cwd,
      "Status: ".toList ++ if terminal.running then "running".toList
        else (terminal.exitStatus.elim "done" toString).toList]
  | none => []

def buildTerminalMarkdown (room : Room) (terminal : Option TerminalSnapshot)
    (lines : List TerminalLine) (sensitiveRisks : List Chars) : Chars :=
  let title := (terminal.map TerminalSnapshot.name).getD "Room terminal log".toList
  compactMarkdown (["# ".toList ++ escapeMarkdown room.name ++ " Terminal Output".toList, [],
    "Project: ".toList ++ inlineCode room.projectPath,
    "Terminal: ".toList ++ escapeMarkdown title] ++ terminalSection terminal ++ [[]] ++
    sensitiveWarningBlock sensitiveRisks ++ [[], fencedCode (terminalOutput lines) "text".toList])

end MultAIplayer.Desktop.Markdown
