import MultAIplayer.Lib.GitPatches
import MultAIplayer.Native.LossyText

/-!
# Patches of a handoff

`git_create_patch`: the diff of the tracked files, and behind it, for every untracked file that
`git status` lists, what git says of it against `/dev/null`, with the headers rewritten to the path
in the project (`normalize_no_index_patch`).

What git writes is given: the format of the diff of a new file (`Git.newFileDiff`), and, as the
fields of `Git`, the parts that depend on the content alone. A directory of which no file is tracked
stands in the status for all its files, and git has no diff of it against `/dev/null`.

Paths are bytes. Git writes a path in quotes when a character of it is not plain.
-/

namespace MultAIplayer.Native

open GitPatch (Text Line encode)

/-! ### Git -/

/-- Printable, and neither a space, a quote nor a backslash. -/
def isPlain (b : UInt8) : Bool := 0x20 < b && b < 0x7f && b != 0x22 && b != 0x5c

/-- Printable ASCII. -/
def isPrintable (c : Char) : Bool := 0x20 ≤ c.toNat && c.toNat < 0x7f

/-- The text of ASCII bytes. -/
@[grind =] def asciiText (bytes : List UInt8) : Text := bytes.map fun b ↦ Char.ofNat b.toNat

/-- What git writes of paths and contents. -/
structure Git where
  quotePath : List UInt8 → Text
  quotePath_plain : ∀ path, path.all isPlain → quotePath path = asciiText path
  quotePath_quoted : ∀ path, ¬ path.all isPlain → path.length < (quotePath path).length
  quotePath_printable : ∀ path, (quotePath path).all isPrintable
  /-- The directories of a path in quotes are not those of the path. -/
  quotePath_directory : ∀ path, path.getLast? = some 0x2f → ¬ path.all isPlain →
    ¬ path <+: encode (quotePath path)
  /-- The names behind `diff --git ` and `+++ ` of a file that is given by its absolute path. -/
  shownNames : Text → Text
  shownNames_printable : ∀ path, (shownNames path).all isPrintable
  shownName : Text → Text
  shownName_printable : ∀ path, (shownName path).all isPrintable
  objectId : List UInt8 → Text
  objectId_printable : ∀ content, (objectId content).all isPrintable
  isBinary : List UInt8 → Bool
  /-- The lines of encoded data. -/
  binaryData : List UInt8 → List Text
  binaryData_isData : ∀ content, ∀ line ∈ binaryData content,
    line.all isPrintable ∧ line ≠ [] ∧ ' ' ∉ line
  decode : List Text → Option (List UInt8)
  decode_binaryData : ∀ content, decode (binaryData content) = some content

/-- What is at a path of the project that git does not track. A directory has files, each with its
path in the project. -/
inductive UntrackedItem where
  | file (content : List UInt8) (executable : Bool)
  | directory (first : List UInt8 × List UInt8) (others : List (List UInt8 × List UInt8))

structure Repository where
  /-- The lines of the status on tracked files. -/
  changes : List Text
  changes_tracked : ∀ line ∈ changes, line.all isPrintable ∧ '?' ∉ line.take 2 ∧ 4 ≤ line.length
  /-- The output of `git diff --binary HEAD`. -/
  trackedDiff : List UInt8
  trackedDiff_nil : changes = [] → trackedDiff = []
  /-- The paths that the status lists as untracked. -/
  untracked : List (List UInt8)
  untracked_ne_nil : [] ∉ untracked
  /-- What a path of the project leads to. -/
  item : List UInt8 → Option UntrackedItem
  item_isSome : ∀ path ∈ untracked, (item path).isSome
  directory_path : ∀ path ∈ untracked, ∀ first others,
    item path = some (.directory first others) → path.getLast? = some 0x2f ∧ path <+: first.1

section

variable (git : Git)

/-- The output of `git status --porcelain=v1`. -/
def Git.status (repository : Repository) : Text :=
  LineStream.unlines '\n' (repository.changes ++
    repository.untracked.map fun path ↦ "?? ".toList ++ git.quotePath path)

/-- The lines of a content, and whether the last one ends with a line feed. -/
def contentLines (content : List UInt8) : List (List UInt8) × Bool :=
  ((LineStream.flagged 10 content).map Prod.fst, content.getLast? = some 10)

/-- The lines of the diff of a new file. -/
@[grind =] def Git.newFileLines (path : Text) (content : List UInt8) (executable : Bool) :
    List (List UInt8) :=
  let lines := (contentLines content).1
  [encode ("diff --git ".toList ++ git.shownNames path),
    encode (GitPatch.modePrefix ++ (if executable then "100755" else "100644").toList),
    encode (GitPatch.indexPrefix ++ git.objectId content)] ++
  if content = [] then []
  else if git.isBinary content then
    [GitPatch.binaryHeader,
      GitPatch.literalPrefix ++ (toString content.length).toList].map encode ++
      (git.binaryData content).map encode ++
      [[], GitPatch.literalPrefix ++ ['0'], "HcmV?d00001".toList, []].map encode
  else
    [GitPatch.oldName, "+++ ".toList ++ git.shownName path,
      GitPatch.hunkHeader lines.length].map encode ++
      lines.map (0x2b :: ·) ++ if (contentLines content).2 then [] else [encode GitPatch.noNewline]

/-- The output of `git diff --binary --no-index -- /dev/null` and a path. -/
def Git.noIndexDiff (path : Text) : UntrackedItem → List UInt8
  | .file content executable => LineStream.unlines 10 (git.newFileLines path content executable)
  | .directory _ _ => []

end

/-! ### The code -/

/-- `str::lines`. -/
def rustLines (text : Text) : List Text :=
  (LineStream.flagged '\n' text).map fun line ↦
    if line.2 ∧ line.1.getLast? = some '\r' then line.1.dropLast else line.1

/-- The texts joined by line feeds. -/
def joinLines : List Text → Text
  | [] => []
  | [line] => line
  | line :: lines => line ++ '\n' :: joinLines lines

@[grind =] def normalizeNoIndexLine (displayPath line : Text) : Text :=
  if "diff --git ".toList <+: line then
    "diff --git a/".toList ++ displayPath ++ " b/".toList ++ displayPath
  else if "+++ ".toList <+: line then "+++ b/".toList ++ displayPath
  else if "--- ".toList <+: line then "--- /dev/null".toList
  else line

def normalizeNoIndexPatch (diff displayPath : Text) : Text :=
  joinLines ((rustLines diff).map (normalizeNoIndexLine displayPath))

def gitStatusLabel (code : Text) : String :=
  if '?' ∈ code then "untracked"
  else if 'A' ∈ code then "added"
  else if 'D' ∈ code then "deleted"
  else if 'R' ∈ code then "renamed"
  else "modified"

structure GitStatusFile where
  path : Text
  status : String

/-- The files of `git_status`. -/
def gitStatusFiles (output : Text) : List GitStatusFile :=
  (rustLines output).filterMap fun line ↦
    if line.length < 4 then none else some ⟨line.drop 3, gitStatusLabel (line.take 2)⟩

structure GitPatchResult where
  patch : Text
  truncated : Bool
  dirtyFiles : List Text

def maxGitPatchChars : ℕ := 120000

def truncationMarker : Text :=
  ("\n\n[multAIplayer truncated this handoff patch. Ask the previous host to push or share a " ++
    "patch if needed.]\n").toList

def boundTextChars (text : Text) (maxChars : ℕ) (marker : Text) : Text :=
  if text.length ≤ maxChars then text
  else if maxChars ≤ marker.length then marker.take maxChars
  else
    let keepChars := maxChars - marker.length
    let headChars := keepChars / 2
    let tailChars := keepChars - headChars
    text.take headChars ++ marker ++ text.drop (text.length - tailChars)

/-- A text that goes on at the start of a line. -/
def endLine (patch : Text) : Text :=
  if patch ≠ [] ∧ patch.getLast? ≠ some '\n' then patch ++ ['\n'] else patch

/-- The patch with what git says of one more file. -/
def appendUntracked (git : Git) (repository : Repository) (patch : Text) (file : GitStatusFile) :
    Option Text :=
  (repository.item (encode file.path)).map fun item ↦
    let output := git.noIndexDiff file.path item
    if output.isEmpty then patch
    else endLine patch ++ normalizeNoIndexPatch (fromUtf8Lossy output) file.path

/-- Nothing, when a path of the status leads nowhere. -/
def gitCreatePatch (git : Git) (repository : Repository) : Option GitPatchResult :=
  let files := gitStatusFiles (git.status repository)
  if files.isEmpty then some ⟨[], false, []⟩
  else
    ((files.filter fun file ↦ file.status = "untracked").foldlM (appendUntracked git repository)
      (fromUtf8Lossy repository.trackedDiff)).map fun patch ↦
        ⟨boundTextChars patch maxGitPatchChars truncationMarker,
          maxGitPatchChars < patch.length, files.map GitStatusFile.path⟩

end MultAIplayer.Native
