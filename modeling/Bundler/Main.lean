import Bundler.Command
import Std.Time.Format

/-!
# The program

This is the outer layer: it takes the files that a build looks at from the system, runs the build on
them, and gives the files that the build made back to the system. Which files those are, the build
itself tells: as long as it misses a module that the system has, that module is added. A watch looks
at its files twice a second.
-/

namespace Bundler.Program

/-- What the system has at an absolute path whose parent is a directory. There is nothing at a path
that the system does not take. -/
def probe (path : Path) : IO (Option Entry) := do
  try
    return some (.file (← IO.FS.readBinFile path))
  catch
    | .noFileOrDirectory .. | .invalidArgument .. => return none
    | .inappropriateType .. => return some .directory
    | error => throw error

/-- Takes over what the system has along the names, from a location on. -/
def observe (files : FileSystem) (location : Location) : List String → IO FileSystem
  | [] => return files
  | name :: rest => do
    let location := location ++ [name]
    match ← probe location.path with
    | none => return files.erase location
    | some (.file content) => return files.insert location (.file content)
    | some .directory => observe (files.insert location .directory) location rest

/-- The workspace with what the system has on the way to a path. -/
def visit (space : Workspace) (path : Path) : IO Workspace := do
  return { space with files := ← observe space.files [] (space.absolute path).walk }

/-- Adds the modules that a build misses, as long as the system has them. -/
partial def complete (config : Config) (space : Workspace) : IO Workspace := do
  match space.bundle config.extension config.entry with
  | .error (.moduleNotFound path _) =>
    let found ← visit space path
    if found.exists? path then complete config found else return found
  | _ => return space

/-- The files that a build looks at and those at the paths, in the working directory. -/
def survey (config : Config) (paths : List Path) : IO Workspace := do
  let cwd := Path.normalize (toString (← IO.currentDir))
  let files ← observe .empty [] cwd.walk
  complete config (← (config.output :: paths).foldlM visit ⟨files, cwd⟩)

/-- Gives the system what one file system has over another. -/
def publish (before after : FileSystem) : IO Unit := do
  for (location, entry) in after.entries.reverse do
    unless before.get? location = some entry do
      match entry with
      | .directory => IO.FS.createDirAll location.path
      | .file content => IO.FS.writeBinFile location.path content

/-- The time of a clock that only goes forward, in seconds. -/
def seconds : IO Float := do
  return (← IO.monoNanosNow).toFloat / 1000000000

/-- The date and the time of day. -/
def today : IO Timestamp := do
  let now ← Std.Time.PlainDateTime.now
  return {
    year := now.year.toInt.toNat
    month := now.month.val.toNat
    day := now.day.val.toNat
    hour := now.hour.val.toNat
    minute := now.minute.val.toNat
    second := now.second.val.toNat }

/-- A host with fresh files for one build, those at the paths among them. -/
def freshHost (config : Config) (console : Console) (paths : List Path) : IO Host := do
  let start ← seconds
  let workspace ← survey config paths
  return { workspace, console, clock := [.exact start, .exact (← seconds)], now := ← today }

/-- Passes on what a host did: its files and its messages. -/
def release (before : Host) (after : Host) : IO Host := do
  publish before.workspace.files after.workspace.files
  IO.eprint after.console.text
  return { after with console := { after.console with written := [] } }

/-- Passes on what a session did. -/
def releaseSession (before : Host) (session : Session) : IO Session := do
  return { session with host := ← release before session.host }

/-- The first watched path whose file the system has in another state than the session, and the
event that tells so. -/
def changed? (session : Session) : IO (Option FileEvent) := do
  for path in session.watcher.watched do
    let space := session.host.workspace
    let fresh ← visit space path
    if fresh.get? path ≠ space.get? path then
      let kind := match space.get? path, fresh.get? path with
        | none, _ => FileEvent.Kind.created
        | _, none => .deleted
        | _, _ => .modified
      return some { kind, source := path }
  return none

/-- Serves changes until the session is stopped. -/
partial def serve (engine : Engine) (session : Session) : IO Session := do
  if session.watcher.stopped then return session
  match ← changed? session with
  | none =>
    IO.sleep 500
    serve engine session
  | some event =>
    let host ← match event.changed? with
      | some _ => freshHost session.config session.host.console session.watcher.watched
      | none =>
        let workspace ← visit session.host.workspace event.source
        pure { session.host with workspace }
    let (next, _) := (Step.event event).run engine { session with host }
    serve engine (← releaseSession host next)

/-- Runs a session until it fails. -/
def watch (host : Host) (config : Config) : IO UInt32 := do
  let engine := Engine.ofAgenda []
  let finish (before : Host) (error : Error) : IO UInt32 := do
    let (host, exit) := before.finish [] (.error error : Except Error Unit)
    let _ ← release before host
    return exit.code.toUInt32
  match ({ host, config } : Session).start engine with
  | (session, .error error) =>
    finish (← releaseSession host session).host error
  | (session, .ok _) =>
    let session ← releaseSession host session.announce
    let session ← serve engine session
    match session.watcher.failure with
    | some error => finish session.host error
    | none => return 0

/-- Runs the program. -/
def run (words : List String) : IO UInt32 := do
  match CommandLine.parse words with
  | .run options =>
    let host ← freshHost options.config { verbose := options.verbose } []
    if options.watch then watch host options.config
    else
      let (after, exit) := host.command words []
      let _ ← release host after
      return exit.code.toUInt32
  | _ =>
    let bare : Host := { workspace := ⟨.empty, "/"⟩, now := ← today }
    let (after, exit) := bare.command words []
    IO.print exit.output
    let _ ← release bare after
    return exit.code.toUInt32

end Bundler.Program

def main (words : List String) : IO UInt32 :=
  Bundler.Program.run words
