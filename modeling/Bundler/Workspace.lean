import Bundler.Error
import Bundler.Text.Lines

/-!
# Files by their paths

A workspace is a file system with a working directory, so that paths as text have a meaning. Reading
looks the path up (`get?`) and decodes the bytes as text with uniform line ends (`readText`).
Writing makes the directories on the way (`makeDirectories`) one by one, so a workspace comes back
also when a later one cannot be made, and a file is written in place with the bytes that the text is
written as (`writeText`). A refusal names the path of the operation that was refused. Some paths are
refused whatever files there are (`Path.fault?`), and no entry is made whose name is too long.
-/

namespace Bundler

/-- The path of a location. -/
def Location.path (location : Location) : Path :=
  "/" ++ "/".intercalate location

/-- The most bytes that a path may have. -/
def Path.byteLimit : Nat := 4095

/-- Why no operation takes the path, whatever files there are. -/
def Path.fault? (path : Path) : Option FileFault :=
  if path = "" then some .noSuchFile
  else if '\x00' ∈ path.toList then some .nullCharacter
  else if path.utf8ByteSize ≤ byteLimit then none else some .nameTooLong

/-- A file system and the normalized path of the directory that relative paths start from. -/
structure Workspace where
  files : FileSystem
  cwd : Path

namespace Workspace

/-- The path as seen from the working directory, normalized. -/
def absolute (space : Workspace) (path : Path) : Path :=
  space.cwd.absolute path

/-- Where a walk along the path starts. -/
def start (space : Workspace) (path : Path) : Location :=
  if path.isAbsolute then [] else space.cwd.walk

/-- The location that the path leads to, which has to exist. -/
def locate (space : Workspace) (path : Path) : Except FileFault Location :=
  match path.fault? with
  | some fault => .error fault
  | none => space.files.resolve (space.start path) path.components

/-- What the path leads to. -/
def get? (space : Workspace) (path : Path) : Option Entry :=
  match space.locate path with
  | .ok location => space.files.get? location
  | .error _ => none

/-- The path leads to a file or a directory. -/
def exists? (space : Workspace) (path : Path) : Bool :=
  (space.get? path).isSome

/-- The bytes of the regular file at the path. -/
def content? (space : Workspace) (path : Path) : Option ByteArray :=
  match space.get? path with
  | some (.file content) => some content
  | _ => none

/-- The text of the file at the path. Line ends of all kinds are read as line feeds. -/
def readText (space : Workspace) (path : Path) : Except Error String :=
  match space.get? path with
  | none => .error (.file .noSuchFile path)
  | some .directory => .error (.file .isADirectory path)
  | some (.file content) =>
    match Text.Utf8.decode content with
    | .error fault => .error (.malformed fault)
    | .ok text => .ok (String.ofList (Text.unifyLineEnds text.toList))

/-- Where the last name of the path belongs, whether something stands there or not: the directory
above it has to exist. A path that ends with no name of its own leads to an existing directory. -/
def destination (space : Workspace) (path : Path) : Except FileFault Location :=
  match path.fault? with
  | some fault => .error fault
  | none =>
    match path.components.reverse.dropWhile (· = "") with
    | [] => .error .isADirectory
    | name :: above =>
      match space.files.resolve (space.start path) above.reverse with
      | .error fault => .error fault
      | .ok directory =>
        match space.files.get? directory with
        | none => .error .noSuchFile
        | some (.file _) => .error .notADirectory
        | some .directory =>
          if name = "." || name = ".." then .error .isADirectory else .ok (directory ++ [name])

/-- The workspace with another entry at a location. -/
def insert (space : Workspace) (location : Location) (entry : Entry) : Workspace :=
  { space with files := space.files.insert location entry }

/-- Makes the directory that the path names, which must not exist. -/
def makeDirectory (space : Workspace) (path : Path) : Except FileFault Workspace :=
  match space.destination path with
  | .error .isADirectory => .error .fileExists
  | .error fault => .error fault
  | .ok location =>
    if (space.files.get? location).isSome then .error .fileExists
    else if location.fits then .ok (space.insert location .directory)
    else .error .nameTooLong

/-- Makes those of the directories that do not exist, in order, up to the first that cannot be
made. -/
def makeMissing (space : Workspace) : List Path → Workspace × Except Error Unit
  | [] => (space, .ok ())
  | path :: rest =>
    if space.exists? path then space.makeMissing rest
    else
      match space.makeDirectory path with
      | .error fault => (space, .error (.file fault path))
      | .ok space => space.makeMissing rest

/-- The path ends with `.` in a directory that does not exist, so that nothing has to be made once
the directory is there. -/
def isRedundant (space : Workspace) (path : Path) : Bool :=
  path.name = "." && path.parent ≠ "" && !space.exists? path.parent

/-- Makes the directory that the path names and those above it, as far as they do not exist. -/
def makeDirectories (space : Workspace) (path : Path) : Workspace × Except Error Unit :=
  match space.makeMissing (path.trail.filter fun step => !space.isRedundant step) with
  | (made, .error error) => (made, .error error)
  | (made, .ok ()) =>
    if made.get? path = some .directory || space.isRedundant path then (made, .ok ())
    else (made, .error (.file .fileExists path))

/-- Puts a file with the content at the path, in place of a file that stands there. -/
def writeFile (space : Workspace) (path : Path) (content : ByteArray) :
    Except Error Workspace :=
  match space.destination path with
  | .error fault => .error (.file fault path)
  | .ok location =>
    if path.toList.getLast? = some '/' || space.files.get? location = some .directory then
      .error (.file .isADirectory path)
    else if location.fits then .ok (space.insert location (.file content))
    else .error (.file .nameTooLong path)

/-- Puts a file with the content at the path, with the directories on the way. -/
def writeThrough (space : Workspace) (path : Path) (content : ByteArray) :
    Workspace × Except Error Unit :=
  let (space, made) :=
    if path.parent = "" then (space, .ok ()) else space.makeDirectories path.parent
  match made with
  | .error error => (space, .error error)
  | .ok () =>
    match space.writeFile path content with
    | .error error => (space, .error error)
    | .ok space => (space, .ok ())

/-- Writes a text to the path, with the directories on the way. -/
def writeText (space : Workspace) (path : Path) (text : String) :
    Workspace × Except Error Unit :=
  space.writeThrough path text.toUTF8

/-- Removes what the path leads to, if it leads anywhere. -/
def delete (space : Workspace) (path : Path) : Workspace :=
  match space.locate path with
  | .error _ => space
  | .ok location => { space with files := space.files.erase location }

end Workspace

/-- A change that someone makes to the files. -/
inductive Edit where
  | write (path : Path) (content : ByteArray)
  | delete (path : Path)
  | makeDirectories (path : Path)

/-- Makes a change to the files. -/
def Workspace.edit (space : Workspace) : Edit → Workspace × Except Error Unit
  | .write path content => space.writeThrough path content
  | .delete path => (space.delete path, .ok ())
  | .makeDirectories path => space.makeDirectories path

end Bundler
