/-!
# Paths as text

A path is a text of names between slashes. This file has the operations that need no file system:
`normalize` removes empty names, `.` and `..` on a stack of names (`enter`), `join` puts a path
below another unless it starts at the root, and `absolute` does both. A path that starts with
exactly two slashes keeps them, since some systems give them a meaning of their own. `relative` is
the way from one directory to a path, and `display` shows a path that way when it lies below the
working directory.
-/

namespace Bundler

/-- The text of a path. -/
abbrev Path := String

namespace Path

/-- The slashes that a normalized path starts with: none, one, or exactly two. -/
def root (path : Path) : String :=
  match path.toList with
  | '/' :: '/' :: '/' :: _ => "/"
  | '/' :: '/' :: _ => "//"
  | '/' :: _ => "/"
  | _ => ""

/-- The path starts at the root. -/
def isAbsolute (path : Path) : Bool :=
  path.toList.head? == some '/'

/-- The texts between the slashes, empty ones included. -/
def components (path : Path) : List String :=
  (path.toList.splitOn '/').map String.ofList

/-- One component applied to the names walked so far, the innermost first. The root is its own
parent, and a relative path keeps the parents that it cannot resolve. -/
def enter (rooted : Bool) (walked : List String) (component : String) : List String :=
  if component = "" || component = "." then walked
  else if component = ".." then
    match walked with
    | [] => if rooted then [] else [".."]
    | inner :: outer => if inner = ".." then ".." :: walked else outer
  else component :: walked

/-- The names that the path walks to, the outermost first. -/
def walk (path : Path) : List String :=
  (path.components.foldl (enter path.isAbsolute) []).reverse

/-- The path without empty names, `.` and removable `..`; the empty path is `.`. -/
def normalize (path : Path) : Path :=
  let text := path.root ++ "/".intercalate path.walk
  if text = "" then "." else text

/-- `path` as seen from the directory `base`. -/
def join (base path : Path) : Path :=
  if path.isAbsolute then path
  else if base = "" || base.toList.getLast? == some '/' then base ++ path
  else base ++ "/" ++ path

/-- `path` as seen from the directory `base`, normalized. -/
def absolute (base path : Path) : Path :=
  (base.join path).normalize

/-- The last component. -/
def name (path : Path) : String :=
  String.ofList (path.toList.reverse.takeWhile (· ≠ '/')).reverse

/-- What stands before the last component, without the slashes between the two. A path of slashes
alone stays. -/
def parent (path : Path) : Path :=
  let before := path.toList.reverse.dropWhile (· ≠ '/')
  let kept := before.dropWhile (· = '/')
  String.ofList (if kept = [] then before else kept).reverse

/-- The last component from its last dot on, or nothing. Dots that start the component are part of
its name. -/
def extension (path : Path) : String :=
  let plain := path.name.toList.dropWhile (· = '.')
  if plain.contains '.' then
    String.ofList ('.' :: (plain.reverse.takeWhile (· ≠ '.')).reverse)
  else ""

/-- Two lists without the elements that they share at their start. -/
def afterShared : List String → List String → List String × List String
  | left :: lefts, right :: rights =>
    if left = right then afterShared lefts rights else (left :: lefts, right :: rights)
  | lefts, rights => (lefts, rights)

/-- The way from the directory `start` to `path`, both absolute. -/
def relative (start path : Path) : Path :=
  let names (p : Path) := p.components.filter (· ≠ "")
  let (up, down) := afterShared (names start) (names path)
  let steps := List.replicate up.length ".." ++ down
  if steps.isEmpty then "." else "/".intercalate steps

/-- The path as messages show it: relative to the working directory `cwd` when it lies below it. The
test is on the text, so a path that leads to a name with two dots in front is shown as it is. -/
def display (cwd path : Path) : Path :=
  if path = "" then path
  else
    let shown := cwd.relative (cwd.absolute path)
    if shown.toList.take 2 = ['.', '.'] then path else shown

/-- The names of the last components that a walk along the path meets, each as the beginning of the
path that ends with it: `a//b` is walked along `a` and `a//b`. -/
def trail (path : Path) : List Path :=
  go [] path.toList
where
  /-- The beginnings that end in the rest of the path, `seen` being what stands before it,
  backwards. -/
  go (seen : List Char) : List Char → List Path
    | [] => stop seen
    | c :: rest => (if c = '/' then stop seen else []) ++ go (c :: seen) rest
  /-- The path up to here, if a component ends here. -/
  stop (seen : List Char) : List Path :=
    match seen with
    | [] => []
    | c :: _ => if c = '/' then [] else [String.ofList seen.reverse]

end Path

/-- The file that an import names: `specifier`, completed by `extension` if it has none of its own,
as seen from the directory `base`. -/
def resolveSpecifier (cwd base : Path) (extension : String) (specifier : Path) : Path :=
  let file := if specifier.extension = "" then specifier ++ extension else specifier
  cwd.absolute (base.join file)

end Bundler
