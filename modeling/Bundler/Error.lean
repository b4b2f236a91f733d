import Bundler.FileSystem
import Bundler.Path
import Bundler.Text.Integer
import Bundler.Text.Utf8
import Bundler.Watch.Event

/-!
# Errors and their messages

`Error` has one constructor for each cause for which a bundle, a write or a watch session fails, and
`Error.message` is the one place that puts a cause into words. A message that shows paths shows them
relative to the working directory (`Path.display`). A bundling error in the narrower sense is a
`Diagnostic`: a message with the module at fault and a hint on how to mend it.
-/

namespace Bundler

/-- A bundling error as it is shown: what went wrong, in which module, and what helps. -/
structure Diagnostic where
  message : String
  path : Option Path := none
  suggestion : Option String := none
deriving DecidableEq, Repr

/-- The text unless it is absent or empty. -/
def given (text : Option String) : Option String :=
  text.filter (· ≠ "")

/-- The full text of a diagnostic. An empty path or hint is left out. -/
def Diagnostic.render (cwd : Path) (diagnostic : Diagnostic) : String :=
  let place := match given diagnostic.path with
    | some path => " in " ++ cwd.display path
    | none => ""
  let hint := match given diagnostic.suggestion with
    | some suggestion => "   💡 " ++ suggestion ++ "\n"
    | none => ""
  "\n❌ Bundling Error" ++ place ++ ":\n" ++ "   " ++ diagnostic.message ++ "\n" ++ hint

/-- Why an operation fails. -/
inductive Error where
  /-- No file at the path; if the path was imported, by which module. -/
  | moduleNotFound (path : Path) (importer : Option Path)
  /-- The modules import one another in a circle; the last is the first again. -/
  | circularImport (cycle : List Path)
  /-- The file system refuses an operation on the path. -/
  | file (fault : FileFault) (path : Path)
  /-- The bytes of a file are no text. -/
  | malformed (fault : Text.Utf8.Malformed)
  /-- The path has no subscription. -/
  | notSubscribed (path : Path)
  /-- A number has more digits than a text of a number may have. -/
  | longNumber
  /-- No file system reports such an event. -/
  | impossibleEvent (event : FileEvent)
deriving DecidableEq, Repr

/-- Results are equal if they are the same value or the same error. -/
instance decidableEqExcept {ε α : Type} [DecidableEq ε] [DecidableEq α] : DecidableEq (Except ε α)
  | .ok left, .ok right => decidable_of_iff (left = right) ⟨congrArg Except.ok, Except.ok.inj⟩
  | .error left, .error right =>
    decidable_of_iff (left = right) ⟨congrArg Except.error, Except.error.inj⟩
  | .ok _, .error _ | .error _, .ok _ => isFalse nofun

/-- The diagnostic of an import cycle. -/
def Diagnostic.ofCycle (cwd : Path) (cycle : List Path) : Diagnostic where
  message := "Circular import detected: " ++ " -> ".intercalate (cycle.map cwd.display)
  path := cycle.head?
  suggestion := some "Move the shared code into a module that neither side imports"

/-- The diagnostic that an error shows, if it is a bundling error in the narrower sense. -/
def Error.diagnostic? (cwd : Path) : Error → Option Diagnostic
  | .circularImport cycle => some (.ofCycle cwd cycle)
  | _ => none

/-- The text of an error. -/
def Error.message (cwd : Path) : Error → String
  | .moduleNotFound path importer =>
    match given importer with
    | some importer => "Import not found: " ++ path ++ " (imported from " ++ importer ++ ")"
    | none => "Entry module not found: " ++ path
  | .circularImport cycle => (Diagnostic.ofCycle cwd cycle).render cwd
  | .file fault path =>
    match fault.code? with
    | some code =>
      "[Errno " ++ toString code ++ "] " ++ fault.description ++ ": " ++ Text.quoted path
    | none => fault.description
  | .malformed fault => fault.message
  | .notSubscribed path => Text.quoted path
  | .longNumber =>
    "Exceeds the limit (" ++ toString Text.digitLimit ++ " digits) for integer string conversion"
  | .impossibleEvent event => "No such event of a directory: " ++ event.source

end Bundler
