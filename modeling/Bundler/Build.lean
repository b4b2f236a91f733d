import Bundler.Diff
import Bundler.Host
import Bundler.Resolver
import Bundler.Settings

/-!
# Building

A build bundles the entry, writes the text of the bundle to the output, and tells how long it took.
If the settings ask for it, the build also reports which lines changed since the output was last
written; what stood there is read first. Nothing is written unless the whole bundle is there
(`Host.write` comes last).
-/

namespace Bundler

/-- The text of the file at the path, or none of it if there is nothing. -/
def Workspace.readPrevious (space : Workspace) (path : Path) : Except Error String :=
  if space.exists? path then space.readText path else .ok ""

namespace Host

/-- Tells which changes lead to the new text. -/
def reportChanges (host : Host) (changes : List Change) : Host :=
  if changes.isEmpty then host.info "No differences."
  else
    (host.info (toString changes.length ++ " line(s) changed:")).infos (renderDiff true changes)

/-- Tells how the new text differs from the old one. -/
def reportDiff (host : Host) (old new : String) : Host :=
  host.reportChanges (diff old new)

/-- The time between two readings of a clock, in milliseconds. -/
def elapsed (start stop : Reading) : String :=
  Text.fixedTwo (start.millisecondsTo stop) ++ " ms"

/-- Writes the text of a bundle to the output and tells about it. `start` is when the build began.
-/
def write (host : Host) (start : Reading) (output : Path) (text : String) :
    Host × Except Error Unit :=
  let (space, written) := host.workspace.writeText output text
  let host := { host with workspace := space }
  match written with
  | .error error => (host, .error error)
  | .ok () =>
    let (host, stop) := host.tick
    let host := host.info ("Bundling completed in " ++ elapsed start stop)
    (host.info ("Bundle written: " ++ host.display output), .ok ())

/-- One build: bundle, write, report. -/
def build (host : Host) (config : Config) : Host × Except Error Bundle :=
  let (host, start) := host.tick
  let space := host.workspace
  let output := space.absolute config.output
  match if config.diff then space.readPrevious output else .ok "" with
  | .error error => (host, .error error)
  | .ok previous =>
    match space.bundle config.extension config.entry with
    | .error error => (host, .error error)
    | .ok bundle =>
      let host := host.debug ("Resolved " ++ toString bundle.modules.length
        ++ " module(s) from " ++ host.display bundle.entry)
      match host.write start output bundle.text with
      | (host, .error error) => (host, .error error)
      | (host, .ok ()) =>
        (if config.diff then host.reportDiff previous bundle.text else host, .ok bundle)

end Host

end Bundler
