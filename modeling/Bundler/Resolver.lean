import Bundler.Module

/-!
# Resolving imports

A resolver walks the import graph depth first and inlines each module once, after the modules that
it imports. It keeps three lists: the modules whose own imports are being resolved (`inProgress`,
the outermost first), those that are inlined (`visited`), and the order in which that happened
(`order`). A module that is met while in progress closes a cycle, one that is met when visited is
left out.

Only modules that are not in progress are entered, so no more can be in progress than there are
names for files, and this number bounds the depth of the walk (`Workspace.fileNames`).
-/

namespace Bundler

/-- What a walk over the import graph has met. -/
structure Resolver where
  visited : List Path := []
  order : List Path := []
  inProgress : List Path := []
deriving DecidableEq, Repr

/-- Inlined texts by their paths, in the order in which they were inlined. -/
abbrev Inlined := List (Path × String)

/-- The table with the text at the path, in the place that the path has. -/
def Inlined.put (table : Inlined) (path : Path) (text : String) : Inlined :=
  if table.any (·.1 = path) then
    table.map fun row => if row.1 = path then (path, text) else row
  else table ++ [(path, text)]

/-- The table of the rows. The last row of a path gives its text, the first its place. -/
def Inlined.ofList (rows : List (Path × String)) : Inlined :=
  rows.foldl (fun table row => table.put row.1 row.2) []

/-- The texts of the table and the content of a module, one after the other. Texts that are empty
are left out, and so is a content of white space. -/
def combine (content : String) (inlined : Inlined) : String :=
  Text.joinLines ((inlined.map (·.2) ++ [Text.trimmed content]).filter (· ≠ ""))

/-- The number of absolute normalized paths that lead to an entry: each is written with one slash at
its start or with two. -/
def Workspace.fileNames (space : Workspace) : Nat :=
  2 * space.files.entries.length

namespace Resolver

/-- Marks a module as inlined. -/
def visit (resolver : Resolver) (path : Path) : Resolver :=
  if path ∈ resolver.visited then resolver
  else { resolver with visited := resolver.visited ++ [path] }

/-- Begins to resolve the imports of a module. -/
def enter (resolver : Resolver) (path : Path) : Resolver :=
  { resolver with inProgress := resolver.inProgress ++ [path] }

/-- Ends what `enter` began. -/
def leave (resolver : Resolver) : Resolver :=
  { resolver with inProgress := resolver.inProgress.dropLast }

/-- Records that a module is inlined now. -/
def record (resolver : Resolver) (path : Path) : Resolver :=
  { resolver.visit path with order := resolver.order ++ [path] }

/-- The cycle that a module in progress closes when it is met again. -/
def cycle (resolver : Resolver) (path : Path) : List Path :=
  resolver.inProgress.dropWhile (· ≠ path) ++ [path]

/-- Inlines the paths from left to right and stops at the first failure, keeping what was met. -/
def inlineAll (inline : Path → Resolver → Resolver × Except Error Inlined) :
    List Path → Resolver → Resolver × Except Error Inlined
  | [], resolver => (resolver, .ok [])
  | path :: rest, resolver =>
    match inline path resolver with
    | (resolver, .error error) => (resolver, .error error)
    | (resolver, .ok here) =>
      match inlineAll inline rest resolver with
      | (resolver, .error error) => (resolver, .error error)
      | (resolver, .ok later) => (resolver, .ok (here ++ later))

/-- Inlines one module with all that it imports, if it is not inlined yet. `depth` bounds the number
of modules that may still be entered one inside the other; when it is used up, every file is in
progress, and there is no other to be found. -/
def inline (load : Option Path → Path → Except Error Module) (depth : Nat) (importer : Option Path)
    (path : Path) (resolver : Resolver) : Resolver × Except Error Inlined :=
  if path ∈ resolver.inProgress then (resolver, .error (.circularImport (resolver.cycle path)))
  else if path ∈ resolver.visited then (resolver, .ok [])
  else
    match load importer path with
    | .error error => (resolver, .error error)
    | .ok module =>
      match depth with
      | 0 => (resolver, .error (.moduleNotFound path importer))
      | depth + 1 =>
        match inlineAll (inline load depth (some path)) module.dependencies
            (resolver.enter path) with
        | (resolver, .error error) => (resolver.leave, .error error)
        | (resolver, .ok nested) =>
          (resolver.leave.record path, .ok [(path, combine module.stripped nested)])

/-- Inlines the modules at the paths, which the importer names, with all that they import. One path
of the walk may not be normalized, the first, hence one more than the names for files. -/
def resolve (resolver : Resolver) (space : Workspace) (extension : String) (importer : Option Path)
    (paths : List Path) : Resolver × Except Error Inlined :=
  inlineAll (inline (space.load extension) (space.fileNames + 1) importer) paths resolver

/-- The text of a module and all that it imports. -/
def resolveEntry (resolver : Resolver) (space : Workspace) (extension : String) (entry : Path) :
    Resolver × Except Error String :=
  match space.load extension none entry with
  | .error error => (resolver, .error error)
  | .ok module =>
    match (resolver.enter entry).resolve space extension (some entry) module.dependencies with
    | (resolver, .error error) => (resolver.leave, .error error)
    | (resolver, .ok inlined) => (resolver.leave, .ok (combine module.stripped inlined))

end Resolver

/-- A bundle: the path of the entry, the text, and the paths of the modules in it, the entry last.
-/
structure Bundle where
  entry : Path
  text : String
  modules : List Path
deriving DecidableEq, Repr

/-- The bundle of the entry and all that it imports. -/
def Workspace.bundle (space : Workspace) (extension : String) (entry : Path) :
    Except Error Bundle :=
  let entry := space.absolute entry
  match Resolver.resolveEntry {} space extension entry with
  | (_, .error error) => .error error
  | (resolver, .ok text) => .ok ⟨entry, text, resolver.order ++ [entry]⟩

end Bundler
