import Bundler.Source.Import
import Bundler.Workspace

/-!
# Modules

A module is a source file: its path, its text, the declarations in it, the files that they name, and
the text without them. Everything but the path follows from the text (`Module.ofText`), and the text
is read from a workspace (`Workspace.load`).
-/

namespace Bundler

/-- A source file, as it was read. -/
structure Module where
  path : Path
  content : String
  imports : List Source.Import
  dependencies : List Path
  stripped : String
deriving DecidableEq, Repr

/-- The files that the declarations name, as seen from the directory `base`, in their order and as
often as they are named. -/
def importedPaths (cwd base : Path) (extension : String) (declarations : List Source.Import) :
    List Path :=
  declarations.map fun declaration => resolveSpecifier cwd base extension declaration.specifier

/-- The module at a path that holds the text. -/
def Module.ofText (cwd : Path) (extension : String) (path : Path) (content : String) : Module :=
  let declarations := Source.imports content
  { path := path
    content := content
    imports := declarations
    dependencies := importedPaths cwd path.parent extension declarations
    stripped := Source.without content declarations }

/-- Reads the module at a path. The importer is named if there is no file at the path. -/
def Workspace.load (space : Workspace) (extension : String) (importer : Option Path)
    (path : Path) : Except Error Module :=
  if space.exists? path then
    match space.readText path with
    | .error error => .error error
    | .ok content => .ok (.ofText space.cwd extension path content)
  else .error (.moduleNotFound path importer)

end Bundler
