import Bundler.Resolver
import Bundler.Workspace

/-!
# What happens in a watch session

A session is driven by steps: calls of its operations, reports of the file system (`FileEvent`), and
changes that someone makes to the files. A step that waits has a script of its own, the steps that
happen while it waits. An agenda tells what happens while certain builds run, so that steps can meet
a session in the middle of a rebuild.
-/

namespace Bundler

/-- One step of a session. -/
inductive Step where
  | edit (edit : Edit)
  | start
  | rebuild
  | stop
  | notify (path : Path)
  | sync (paths : List Path)
  | event (event : FileEvent)
  | cancel (path : Path)
  /-- Waits until the session is stopped; the script happens meanwhile, and after its last step the
  wait is interrupted. -/
  | wait (script : List Step)

/-- What a step results in. -/
inductive Outcome where
  | done
  | failed (error : Error)
  | bundled (bundle : Bundle)
  /-- Whether a notification led to a rebuild. -/
  | triggered (answer : Bool)
  /-- How a wait ended, and what the steps of its script resulted in. -/
  | waited (interrupted : Bool) (log : List Outcome)

/-- The steps that happen while the build of a number runs: some before it reads its sources, others
after it has written its output. Builds are counted from one. -/
structure Company where
  number : Nat
  before : List Step := []
  after : List Step := []

/-- The company of builds, in the order of their numbers, each number once. -/
abbrev Agenda := List Company

/-- The agenda with more company for a build. -/
def Agenda.add (company : Company) : Agenda → Agenda
  | [] => [company]
  | first :: rest =>
    if company.number < first.number then company :: first :: rest
    else if company.number = first.number then
      { first with
        before := first.before ++ company.before
        after := first.after ++ company.after } :: rest
    else first :: Agenda.add company rest

/-- The agenda of company that is given in any order. -/
def Agenda.ofList (companies : List Company) : Agenda :=
  companies.foldl (fun agenda company => agenda.add company) []

end Bundler
