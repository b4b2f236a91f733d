import Bundler.Build
import Bundler.Watch.Step
import Bundler.Watch.Watcher

/-!
# Watch sessions

A session builds once, subscribes to every module of the bundle, and builds again whenever one of
them changes. Rebuilds do not overlap: a change that arrives while one is running is queued, and all
queued changes together lead to one more rebuild (`rounds`). A failed rebuild ends the session.

Steps can happen while a build runs, and can themselves start builds. `Engine.ofAgenda` ties this
knot: the steps that accompany a build run with the engine for the rest of the agenda, because every
build that they start has a higher number than the one that they accompany.
-/

namespace Bundler

/-- A watch session and its surroundings. -/
structure Session where
  host : Host
  config : Config
  watcher : Watcher := {}
  /-- The number of builds that were begun. -/
  builds : Nat := 0
  /-- What the steps that accompanied builds resulted in. -/
  aside : List Outcome := []

/-- How a session builds: a single build, and a rebuild with those that are queued behind it. -/
structure Engine where
  build : Session → Session × Except Error Bundle
  rounds : Session → Session

namespace Session

/-- Subscribes to the paths and to no others. -/
def sync (session : Session) (paths : List Path) : Session :=
  let notice (text : String) (path : Path) : String := text ++ " " ++ session.host.display path
  let notices := (session.watcher.leaving paths).map (notice "Stopped watching")
    ++ (session.watcher.joining paths).map (notice "Watching")
  { session with watcher := session.watcher.sync paths, host := session.host.debugs notices }

/-- Takes note of a rebuild that succeeded. -/
def succeed (session : Session) (bundle : Bundle) : Session :=
  let session := { session with watcher := session.watcher.count }
  if session.config.refreshWatches then session.sync bundle.modules else session

/-- Builds, and once more if a rebuild was queued meanwhile. -/
def rounds (build : Session → Session × Except Error Bundle) (again : Session → Session)
    (session : Session) : Session :=
  match build session with
  | (session, .error error) => { session with watcher := session.watcher.fail error }
  | (session, .ok bundle) =>
    let session := session.succeed bundle
    if session.watcher.pending then
      again { session with watcher := session.watcher.dequeue }
    else { session with watcher := session.watcher.settle }

/-- Rebuilds, or queues a rebuild if one is running. -/
def rebuild (engine : Engine) (session : Session) : Session :=
  if session.watcher.rebuilding then
    { session with
      watcher := session.watcher.queue
      host := session.host.debug "Rebuild already running, queued another" }
  else engine.rounds { session with watcher := session.watcher.begin }

/-- Tells the session that a file changed. If the file is subscribed, that leads to a rebuild. -/
def notify (engine : Engine) (path : Path) (session : Session) : Session × Bool :=
  let path := session.host.workspace.absolute path
  if session.watcher.serves path && !session.watcher.stopped then
    let notice := "[" ++ session.host.now.render ++ "] Change detected in: "
      ++ session.host.display path
    (rebuild engine { session with host := session.host.info notice }, true)
  else (session, false)

/-- Tells the session of an event of the file system. -/
def dispatch (engine : Engine) (event : FileEvent) (session : Session) :
    Session × Except Error Unit :=
  if event.isPossible then
    match event.changed? with
    | some path => ((session.notify engine path).1, .ok ())
    | none => (session, .ok ())
  else (session, .error (.impossibleEvent event))

/-- The first build. If it succeeds, its modules are subscribed and the observer is started. -/
def start (engine : Engine) (session : Session) : Session × Except Error Bundle :=
  match engine.build session with
  | (session, .error error) => (session, .error error)
  | (session, .ok bundle) =>
    let session := session.sync bundle.modules
    ({ session with watcher := session.watcher.start }, .ok bundle)

/-- Ends the session. -/
def stop (session : Session) : Session :=
  { session with watcher := session.watcher.stop }

/-- Stops serving the subscription of a path. -/
def cancel (session : Session) (path : Path) : Session × Except Error Unit :=
  if path ∈ session.watcher.paths then
    ({ session with watcher := session.watcher.cancel path }, .ok ())
  else (session, .error (.notSubscribed path))

/-- Makes a change to the files. -/
def edit (session : Session) (edit : Edit) : Session × Except Error Unit :=
  let (space, made) := session.host.workspace.edit edit
  ({ session with host := { session.host with workspace := space } }, made)

end Session

/-- The outcome of a step that only succeeds or fails. -/
def Outcome.ofExcept {α : Type} (outcome : α → Outcome) : Except Error α → Outcome
  | .ok value => outcome value
  | .error error => .failed error

/-- The outcome of a wait. If a failed rebuild ended it, the wait fails as that rebuild did. -/
def Outcome.ofWait (session : Session) (interrupted : Bool) (log : List Outcome) : Outcome :=
  match if interrupted then none else session.watcher.failure with
  | some error => .failed error
  | none => .waited interrupted log

mutual

/-- Runs one step. -/
def Step.run (engine : Engine) : Step → Session → Session × Outcome
  | .edit edit, session =>
    let (session, made) := session.edit edit
    (session, .ofExcept (fun _ => .done) made)
  | .start, session =>
    let (session, started) := session.start engine
    (session, .ofExcept .bundled started)
  | .rebuild, session => (session.rebuild engine, .done)
  | .stop, session => (session.stop, .done)
  | .notify path, session =>
    let (session, answer) := session.notify engine path
    (session, .triggered answer)
  | .sync paths, session => (session.sync paths, .done)
  | .event event, session =>
    let (session, dispatched) := session.dispatch engine event
    (session, .ofExcept (fun _ => .done) dispatched)
  | .cancel path, session =>
    let (session, cancelled) := session.cancel path
    (session, .ofExcept (fun _ => .done) cancelled)
  | .wait script, session =>
    let (session, interrupted, log) := runScript engine script session
    (session.stop, .ofWait session interrupted log)

/-- Runs the steps of a script while the session is not stopped. Returns whether the script was used
up before that, and what its steps resulted in. -/
def runScript (engine : Engine) : List Step → Session → Session × Bool × List Outcome
  | [], session => (session, !session.watcher.stopped, [])
  | step :: rest, session =>
    if session.watcher.stopped then (session, false, [])
    else
      let (session, outcome) := step.run engine session
      let (session, interrupted, log) := runScript engine rest session
      (session, interrupted, outcome :: log)

end

namespace Session

/-- Runs steps that accompany a build, and keeps what they result in. -/
def runAside (engine : Engine) : List Step → Session → Session
  | [], session => session
  | step :: rest, session =>
    let (session, outcome) := step.run engine session
    runAside engine rest { session with aside := session.aside ++ [outcome] }

/-- A build with the steps that happen while it runs. Those after it are left out if it fails. -/
def buildAmid (engine : Engine) (before after : List Step) (session : Session) :
    Session × Except Error Bundle :=
  let session := runAside engine before { session with builds := session.builds + 1 }
  let (host, built) := session.host.build session.config
  let session := { session with host }
  match built with
  | .error error => (session, .error error)
  | .ok bundle => (runAside engine after session, .ok bundle)

/-- A build during which nothing happens. -/
def build (session : Session) : Session × Except Error Bundle :=
  let (host, built) := session.host.build session.config
  ({ session with host, builds := session.builds + 1 }, built)

end Session

/-- The engine of an agenda. Nothing is queued by a build without company, so behind the last
company there is nothing more to take up. -/
def Engine.ofAgenda : Agenda → Engine
  | [] =>
    { build := Session.build
      rounds := Session.rounds Session.build fun session =>
        { session with watcher := session.watcher.settle } }
  | company :: rest =>
    let later := Engine.ofAgenda rest
    let build (session : Session) : Session × Except Error Bundle :=
      if session.builds + 1 < company.number then session.build
      else if session.builds + 1 = company.number then
        session.buildAmid later company.before company.after
      else later.build session
    { build, rounds := Session.rounds build later.rounds }

namespace Session

/-- Tells how many files are watched. -/
def announce (session : Session) : Session :=
  let notice := "Watching " ++ toString session.watcher.subscriptions.length
    ++ " file(s) for changes..."
  { session with host := session.host.info notice }

/-- Starts the session and waits until it is stopped or interrupted. Returns what the steps of the
script resulted in, and the error of the build that failed, if one did. -/
def watch (engine : Engine) (script : List Step) (session : Session) :
    Session × List Outcome × Except Error Unit :=
  match session.start engine with
  | (session, .error error) => (session, [], .error error)
  | (session, .ok _) =>
    match runScript engine script session.announce with
    | (session, true, log) =>
      let session := session.stop
      ({ session with host := session.host.info "Stopped watching." }, log, .ok ())
    | (session, false, log) =>
      match session.watcher.failure with
      | some error => (session.stop, log, .error error)
      | none => (session.stop, log, .ok ())

end Session

end Bundler
