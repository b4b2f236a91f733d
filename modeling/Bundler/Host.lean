import Bundler.Console
import Bundler.Workspace

/-!
# The surroundings of a run

A host is all that a run reads and changes: files, the console, a clock and the time of day. The
clock is the list of the readings that it will give, so a run is a function of its host.
-/

namespace Bundler

/-- A reading of a clock, in seconds. Some clocks count whole seconds. -/
inductive Reading where
  | whole (seconds : Int)
  | exact (seconds : Float)

/-- A reading as a floating-point number. -/
def Reading.toFloat : Reading → Float
  | .whole seconds => .ofInt seconds
  | .exact seconds => seconds

/-- The milliseconds from one reading to another. Between whole readings they are exact until they
are rounded to a floating-point number. -/
def Reading.millisecondsTo : Reading → Reading → Float
  | .whole start, .whole stop => .ofInt ((stop - start) * 1000)
  | start, stop => (stop.toFloat - start.toFloat) * 1000

/-- What a run reads and changes. -/
structure Host where
  workspace : Workspace
  console : Console := {}
  /-- The next readings of the clock. -/
  clock : List Reading := []
  now : Timestamp

namespace Host

/-- The path as messages show it. -/
def display (host : Host) (path : Path) : Path :=
  host.workspace.cwd.display path

/-- Writes an information. -/
def info (host : Host) (message : String) : Host :=
  { host with console := host.console.info message }

/-- Writes a debug message, if those are shown. -/
def debug (host : Host) (message : String) : Host :=
  { host with console := host.console.debug message }

/-- Writes several pieces of information in order. -/
def infos (host : Host) (messages : List String) : Host :=
  messages.foldl info host

/-- Writes several debug messages in order, if those are shown. -/
def debugs (host : Host) (messages : List String) : Host :=
  messages.foldl debug host

/-- Reads the clock; one that has no more readings stands at zero. -/
def tick (host : Host) : Host × Reading :=
  match host.clock with
  | [] => (host, .exact 0)
  | reading :: later => ({ host with clock := later }, reading)

/-- Messages leave the files alone. -/
@[simp] theorem workspace_info (host : Host) (message : String) :
    (host.info message).workspace = host.workspace := rfl

@[simp] theorem workspace_debug (host : Host) (message : String) :
    (host.debug message).workspace = host.workspace := rfl

@[simp] theorem workspace_infos (host : Host) (messages : List String) :
    (host.infos messages).workspace = host.workspace := by
  induction messages generalizing host with
  | nil => rfl
  | cons message rest ih => exact ih (host.info message)

@[simp] theorem workspace_debugs (host : Host) (messages : List String) :
    (host.debugs messages).workspace = host.workspace := by
  induction messages generalizing host with
  | nil => rfl
  | cons message rest ih => exact (ih (host.debug message)).trans (workspace_debug host message)

/-- So does the clock. -/
@[simp] theorem workspace_tick (host : Host) : host.tick.1.workspace = host.workspace := by
  unfold tick; split <;> rfl

end Host

end Bundler
