import MultAIplayer.Lib.Text

/-!
# What the native process checks first

The checks that the commands of the desktop's native process make on what the web view sends. Texts
are measured in characters, in bytes where the source does.
-/

namespace MultAIplayer.Native

def maxTerminalCommandChars : ℕ := 4000
def maxProjectPathChars : ℕ := 2048
def maxRoomIdChars : ℕ := 160

/-- `char::is_whitespace`. -/
def isWhitespace (c : Char) : Bool :=
  c ∈ [' ', '\u0085', '\u00a0', '\u1680', '\u2028', '\u2029', '\u202f', '\u205f', '\u3000'] ||
    (0x9 ≤ c.toNat && c.toNat ≤ 0xd) || (0x2000 ≤ c.toNat && c.toNat ≤ 0x200a)

/-- `str::trim`. -/
def trim (s : String) : String :=
  String.ofList ((s.toList.dropWhile isWhitespace).rdropWhile isWhitespace)

/-- `char::is_control`. -/
def isControl (c : Char) : Bool := c.toNat < 0x20 || (0x7f ≤ c.toNat && c.toNat < 0xa0)

/-- Some check fails with a text, or all pass. -/
def firstFailure : List (Bool × String) → Except String Unit
  | [] => .ok ()
  | (fails, message) :: rest => if fails then .error message else firstFailure rest

def ensureProjectPath (cwd : String) : Except String Unit :=
  firstFailure [
    ((trim cwd).isEmpty, "Project path is required"),
    (cwd != trim cwd, "Project path cannot have leading or trailing whitespace"),
    (maxProjectPathChars < cwd.length, "Project path must be 2048 characters or fewer"),
    (cwd.toList.any isControl, "Project path cannot contain control characters"),
    (cwd.toList.head? != some '/', "Project path must be absolute")]

def ensureTerminalCommand (command : String) : Except String Unit :=
  firstFailure [
    ((trim command).isEmpty, "Terminal command is required"),
    (maxTerminalCommandChars < command.length,
      "Terminal command is too long; limit is 4000 characters")]

def ensureRoomId (roomId : String) : Except String Unit :=
  firstFailure [
    (roomId.isEmpty || maxRoomIdChars < Text.utf8Length roomId, "room id is invalid"),
    (!roomId.toList.all fun c ↦ c.isAlphanum || c = '-' || c = '_',
      "room id contains unsupported characters")]

/-- What the operating system says of a path. `canonicalize` is `std::fs::canonicalize`, with the
text of its failure. -/
structure FileSystem where
  isDir : String → Bool
  canonicalize : String → Except String String

def ensureExistingDir (fs : FileSystem) (cwd : String) : Except String Unit :=
  match ensureProjectPath cwd with
  | .error message => .error message
  | .ok () => if fs.isDir cwd then .ok () else .error (cwd ++ " is not an existing directory")

end MultAIplayer.Native
