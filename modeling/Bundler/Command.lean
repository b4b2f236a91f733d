import Bundler.CommandLine
import Bundler.Watch.Session

/-!
# Commands

A command is one run of the program with the words of its command line: it shows its help, refuses
the words, builds once, or watches. Why a run failed goes to the error stream, and the exit code
tells that it did.
-/

namespace Bundler

/-- What a command leaves behind besides its messages and the files: its exit code, what it wrote to
the standard output, and what the steps that happened while it waited resulted in. -/
structure Exit where
  code : Nat
  output : String := ""
  log : List Outcome := []

namespace Host

/-- Writes a text to the error stream as it is. -/
def complain (host : Host) (text : String) : Host :=
  { host with console := host.console.write text }

/-- Ends a run, with a complaint if it failed. -/
def finish {α : Type} (host : Host) (log : List Outcome) : Except Error α → Host × Exit
  | .ok _ => (host, { code := 0, log })
  | .error error =>
    (host.complain ("Error: Bundling failed:\n" ++ error.message host.workspace.cwd ++ "\n"),
      { code := 1, log })

/-- The host with the messages that the options ask for. -/
def configured (host : Host) (options : CommandLine.Options) : Host :=
  { host with console := { host.console with verbose := options.verbose } }

/-- Runs a command. The script is what happens while it watches. -/
def command (host : Host) (words : List String) (script : List Step) : Host × Exit :=
  match CommandLine.parse words with
  | .help => (host, { code := 0, output := CommandLine.helpText })
  | .refused error => (host.complain error.render, { code := 2 })
  | .run options =>
    let host := host.configured options
    if options.watch then
      let session : Session := { host, config := options.config }
      let (session, log, watched) := session.watch (Engine.ofAgenda []) script
      session.host.finish log watched
    else
      let (host, built) := host.build options.config
      host.finish [] built

end Host

end Bundler
