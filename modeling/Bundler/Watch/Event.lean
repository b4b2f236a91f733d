import Bundler.Path

/-!
# Events of a file system

An observer of a file system reports what happens to files and directories. Of these events, those
matter that may give a file new content (`FileEvent.changed?`).
-/

namespace Bundler

/-- What a file system reports about a file or a directory. -/
inductive FileEvent.Kind where
  | created
  | modified
  | deleted
  | opened
  | closed
  | moved (destination : Path)
deriving DecidableEq, Repr

/-- A report of the file system. -/
structure FileEvent where
  kind : FileEvent.Kind
  source : Path
  isDirectory : Bool := false
deriving DecidableEq, Repr

/-- File systems report that files are opened and closed, but not that directories are. -/
def FileEvent.isPossible (event : FileEvent) : Bool :=
  !event.isDirectory || (event.kind ≠ .opened && event.kind ≠ .closed)

/-- The file whose content may be new after an event. An editor that saves through a file of its own
ends with a move onto the target, so a move counts for its destination. -/
def FileEvent.changed? (event : FileEvent) : Option Path :=
  if event.isDirectory then none
  else
    match event.kind with
    | .created | .modified => some event.source
    | .moved destination => some destination
    | .deleted | .opened | .closed => none

end Bundler
