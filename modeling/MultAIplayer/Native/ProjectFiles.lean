import MultAIplayer.Lib.LinkTreeWrites
import MultAIplayer.Lib.Text
import MultAIplayer.Native.PermissionPaths
import MultAIplayer.Native.Validation

/-!
# Files of a project

`project_file_read` and `project_file_write`, against a tree of files with symbolic links. A write
makes the directories that are missing on its path before it looks at where they are, at the size of
the content and at the content that it expects (`safe_project_write_path`). So a request that is
rejected may leave directories behind, outside the project too, where a link leads out of it.

The texts of the operating system behind the messages are left out, and a path that leads nowhere is
not found, whatever the reason. A storage takes the temporary file of a write or not; the other steps
go by what is in the tree.
-/

namespace MultAIplayer.Native

open LinkTree (Component names placePath)

/-! ### The disk -/

/-- The files of the host and their bytes. -/
structure Disk extends HostFiles where
  bytes : List String → List UInt8

/-- What is at a place. -/
inductive Entry where
  | dir
  | file (bytes : List UInt8)
  | link (target : LinkTree.Path String)

/-- The kind of thing that is at a place. -/
def Entry.node : Entry → LinkTree.Node String
  | .dir => .dir
  | .file _ => .file
  | .link target => .link target

namespace Disk

variable (disk : Disk)

def entry (place : List String) : Option Entry :=
  match disk.tree.node place with
  | some .dir => some .dir
  | some .file => some (.file (disk.bytes place))
  | some (.link target) => some (.link target)
  | none => none

/-- The file at a name of a directory. -/
def putFile (place : List String) (name : String) (bytes : List UInt8) : Disk where
  tree := disk.tree.put place name .file
  workingDirectory := disk.workingDirectory
  bytes other := if other = name :: place then bytes else disk.bytes other

def removeFile (place : List String) : Disk := { disk with tree := disk.tree.unlink place }

/-- `rename` within a directory. -/
def renameFile (place : List String) (source target : String) : Disk :=
  (disk.removeFile (source :: place)).putFile place target (disk.bytes (source :: place))

/-- The place of the file that a path leads to. -/
@[grind =] def fileAt (path : List (Component String)) : Option (List String) :=
  (disk.tree.resolve path).filter fun place ↦ disk.tree.node place = some .file

def fileSystem : FileSystem where
  isDir cwd := (disk.canonicalize cwd).any fun place ↦ disk.tree.node place = some .dir
  canonicalize cwd :=
    match disk.canonicalize cwd with
    | some place => .ok ("/" ++ "/".intercalate place.reverse)
    | none => .error "Failed to resolve project path"

end Disk

/-! ### Errors -/

inductive CommandErrorCode where
  | internalError
  | invalidArgument
  | notFound
  | storageError
  deriving DecidableEq

structure CommandError where
  code : CommandErrorCode
  message : String
  deriving DecidableEq

def maxCommandErrorMessageChars : ℕ := 800

def boundPublicMessage (message : String) : String :=
  if maxCommandErrorMessageChars < message.length then
    String.ofList (message.toList.take maxCommandErrorMessageChars) ++ "…"
  else message

def CommandError.new (code : CommandErrorCode) (message : String) : CommandError :=
  ⟨code, boundPublicMessage message⟩

/-- A text that is no command error has no public message. -/
def CommandError.internal : CommandError :=
  .new .internalError "The native command could not be completed."

/-! ### Requests -/

structure ProjectFileReadRequest where
  cwd : String
  path : String
  maxBytes : Option ℕ := none

structure ProjectFileWriteRequest where
  cwd : String
  path : String
  content : String
  expectedContent : Option String := none

/-- A text that is made of the bytes of a file. -/
inductive FileText where
  | dataUrl (mediaType : String) (bytes : List UInt8)
  | utf8Lossy (bytes : List UInt8)

structure ProjectFileContent where
  path : String
  size : ℕ
  truncated : Bool
  content : FileText
  mediaType : Option String

structure ProjectFileWriteResult where
  path : String
  size : ℕ

/-- `as_bytes`. -/
def asBytes (text : String) : List UInt8 := text.toByteArray.data.toList

def maxProjectImageBytes : ℕ := 2500000

def maxEditorBytes : ℕ := 1000000

def outsideProject : String := "File path must stay inside the project"

/-! ### Paths -/

/-- `ensure_existing_dir` and `canonical_project_root`. -/
def projectRoot (disk : Disk) (cwd : String) : Except CommandError (List String) :=
  match ensureExistingDir disk.fileSystem cwd with
  | .error _ => .error .internal
  | .ok () =>
    match ensureProjectPath cwd, disk.canonicalize cwd with
    | .ok (), some root => .ok root
    | _, _ => .error .internal

/-- A path of the project, with everything in it as it stands. -/
def joinedPath (root : List String) (relativePath : String) : List (Component String) :=
  placePath root ++ (parsePath relativePath).components

def safeProjectPath (disk : Disk) (root : List String) (relativePath : String) :
    Except String (List String) :=
  if (parsePath relativePath).absolute ∨ .parent ∈ (parsePath relativePath).components then
    .error outsideProject
  else
    match disk.tree.resolve (placePath root) with
    | none => .error "Failed to resolve project path"
    | some canonicalRoot =>
      match disk.tree.resolve (joinedPath root relativePath) with
      | none => .error "Failed to resolve file path"
      | some canonical => if canonicalRoot <:+ canonical then .ok canonical else .error outsideProject

def normalName : Component String → Option String
  | .normal name => some name
  | _ => none

/-- The names of a relative path, innermost first, if it has names only. Repeated separators and the
component `.` count for nothing but at the start. -/
def normalizedPath (relativePath : String) : Option (List String) :=
  if trim relativePath ≠ relativePath ∨ trim relativePath = "" then none
  else if (parsePath relativePath).absolute then none
  else if (parsePath relativePath).components.head? = some .current ∨
      .parent ∈ (parsePath relativePath).components then none
  else some ((parsePath relativePath).components.filterMap normalName).reverse

/-- The place that is written, and what the search for it has made of the disk. -/
@[grind =] def safeProjectWritePath (disk : Disk) (root : List String) (relativePath : String) :
    Except String (List String) × Disk :=
  match normalizedPath relativePath with
  | none => (.error outsideProject, disk)
  | some normalized =>
    if disk.pathExists (placePath (normalized ++ root)) then
      (safeProjectPath disk root relativePath, disk)
    else
      match normalized with
      | [] => (.error outsideProject, disk)
      | fileName :: parents =>
        match disk.tree.createDirAll (parents ++ root) with
        | (false, tree) => (.error "Failed to create file directory", { disk with tree := tree })
        | (true, tree) =>
          match tree.resolve (placePath (parents ++ root)) with
          | none => (.error "Failed to resolve file directory", { disk with tree := tree })
          | some parent =>
            if root <:+ parent then (.ok (fileName :: parent), { disk with tree := tree })
            else (.error outsideProject, { disk with tree := tree })

/-! ### Writing -/

def rejectNonRegularTarget (disk : Disk) (parent : List String) (name : String) :
    Except String Unit :=
  if disk.tree.node parent = some .dir then
    match disk.tree.node (name :: parent) with
    | some .file | none => .ok ()
    | some _ => .error "Target path must be a regular file, not a symlink"
  else .error "Failed to inspect target file"

def temporaryNotWritten : String := "Failed to write temporary project file"

/-- The temporary file has a name of its own, and the storage takes it or not. -/
@[grind =] def atomicWritePrivateFile (disk : Disk) (temporary : String) (canWrite : Bool)
    (target : List String) (content : List UInt8) : Except String Unit × Disk :=
  match target with
  | [] => (.error "Target file has no parent directory", disk)
  | name :: place =>
    match disk.tree.resolve (placePath place) with
    | none => (.error "Failed to resolve target file directory", disk)
    | some parent =>
      match rejectNonRegularTarget disk parent name with
      | .error message => (.error message, disk)
      | .ok () =>
        if disk.tree.node (temporary :: parent) ≠ none then
          (.error "Failed to create private temporary file", disk)
        else
          let created := disk.putFile parent temporary []
          if canWrite then
            let written := created.putFile parent temporary content
            match rejectNonRegularTarget written parent name with
            | .error message => (.error message, written.removeFile (temporary :: parent))
            | .ok () => (.ok (), written.renameFile parent temporary name)
          else (.error temporaryNotWritten, created.removeFile (temporary :: parent))

@[grind =]
def projectFileWriteIn (disk : Disk) (root : List String) (temporary : String) (canWrite : Bool)
    (request : ProjectFileWriteRequest) : Except CommandError ProjectFileWriteResult × Disk :=
  match safeProjectWritePath disk root request.path with
  | (.error message, disk) => (.error (.new .invalidArgument message), disk)
  | (.ok requested, disk) =>
    if maxEditorBytes < (asBytes request.content).length then
      (.error (.new .invalidArgument "File content is too large to save from the editor"), disk)
    else
      let compared : Except CommandError Unit :=
        match request.expectedContent with
        | none => .ok ()
        | some expected =>
          match disk.fileAt (placePath requested) with
          | none => .error (.new .storageError "Failed to compare current file")
          | some current =>
            if disk.bytes current = asBytes expected then .ok ()
            else .error (.new .invalidArgument
              "The file changed after this edit was prepared. Reload it before saving.")
      match compared with
      | .error error => (.error error, disk)
      | .ok () =>
        match atomicWritePrivateFile disk temporary canWrite requested (asBytes request.content) with
        | (.error message, disk) => (.error (.new .storageError message), disk)
        | (.ok (), disk) =>
          match disk.fileAt (placePath requested) with
          | none => (.error (.new .storageError "Failed to read saved file metadata"), disk)
          | some place => (.ok ⟨request.path, (disk.bytes place).length⟩, disk)

def projectFileWrite (disk : Disk) (temporary : String) (canWrite : Bool)
    (request : ProjectFileWriteRequest) : Except CommandError ProjectFileWriteResult × Disk :=
  match projectRoot disk request.cwd with
  | .error error => (.error error, disk)
  | .ok root => projectFileWriteIn disk root temporary canWrite request

/-! ### Reading -/

/-- `Path::extension`, of the last name of a path. -/
def pathExtension (path : String) : Option (List Char) :=
  match (names (parsePath path).components).getLast? with
  | some (.normal name) =>
    let behind := name.toList.reverse.takeWhile (· ≠ '.')
    let before := name.toList.reverse.drop (behind.length + 1)
    if '.' ∈ name.toList ∧ before ≠ [] then some behind.reverse else none
  | _ => none

def projectImageExtension (path : String) : Option String :=
  (pathExtension path).bind fun extension ↦
    let lower := String.ofList (extension.map Char.toLower)
    if lower = "png" then some "png"
    else if lower = "jpg" ∨ lower = "jpeg" then some "jpeg"
    else if lower = "gif" then some "gif"
    else if lower = "webp" then some "webp"
    else none

/-- The bytes that a file of a type starts with, or has at 8, and its media type. -/
def verifiedProjectImageMediaType (extension : String) (bytes : List UInt8) :
    Except String String :=
  let valid : Bool :=
    if extension = "png" then
      [0x89, 0x50, 0x4e, 0x47, 0x0d, 0x0a, 0x1a, 0x0a].isPrefixOf bytes
    else if extension = "jpeg" then [0xff, 0xd8, 0xff].isPrefixOf bytes
    else if extension = "gif" then
      (asBytes "GIF87a").isPrefixOf bytes || (asBytes "GIF89a").isPrefixOf bytes
    else if extension = "webp" then
      12 ≤ bytes.length && (asBytes "RIFF").isPrefixOf bytes &&
        (bytes.drop 8).take 4 = asBytes "WEBP"
    else false
  if valid then .ok ("image/" ++ extension)
  else .error "Image contents do not match the allowlisted file type"

def projectFileReadIn (disk : Disk) (root : List String) (request : ProjectFileReadRequest) :
    Except CommandError ProjectFileContent :=
  if (parsePath request.path).absolute ∨ .parent ∈ (parsePath request.path).components then
    .error (.new .invalidArgument outsideProject)
  else if !disk.pathExists (joinedPath root request.path) then
    .error (.new .notFound "The requested project file was not found")
  else
    match safeProjectPath disk root request.path with
    | .error message => .error (.new .invalidArgument message)
    | .ok requested =>
      match disk.tree.node requested with
      | some .file =>
        let bytes := disk.bytes requested
        match projectImageExtension request.path with
        | some extension =>
          if maxProjectImageBytes < bytes.length then
            .error (.new .invalidArgument ("Image is too large to attach safely (" ++
              toString bytes.length ++ " bytes; limit " ++ toString maxProjectImageBytes ++ " bytes)"))
          else
            match verifiedProjectImageMediaType extension bytes with
            | .error message => .error (.new .invalidArgument message)
            | .ok mediaType =>
              .ok ⟨request.path, bytes.length, false, .dataUrl mediaType bytes, some mediaType⟩
        | none =>
          let maxBytes := min 250000 (max 1024 (request.maxBytes.getD 80000))
          .ok ⟨request.path, bytes.length, maxBytes < bytes.length,
            .utf8Lossy (bytes.take maxBytes), none⟩
      | _ => .error (.new .invalidArgument (request.path ++ " is not a file"))

def projectFileRead (disk : Disk) (request : ProjectFileReadRequest) :
    Except CommandError ProjectFileContent :=
  match projectRoot disk request.cwd with
  | .error error => .error error
  | .ok root => projectFileReadIn disk root request

end MultAIplayer.Native
