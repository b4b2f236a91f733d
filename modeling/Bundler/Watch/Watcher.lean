import Bundler.Error

/-!
# Subscriptions

A watcher keeps one subscription for each file that it waits for, and one directory watch for each
directory that holds such a file, because an observer of the file system reports on directories.
`sync` makes the subscribed paths those of a list: the paths that leave are unsubscribed in the
order of their texts, then those that join are subscribed in the order of the list. A directory is
scheduled with its first subscription and unscheduled with its last, and all calls to the observer
are kept in order (`calls`). `mem_paths_sync` says that after `sync` exactly the listed paths are
subscribed.
-/

namespace Bundler

/-- The interest in changes of one file. A cancelled subscription stays but is no longer served. -/
structure Subscription where
  path : Path
  active : Bool := true
deriving DecidableEq, Repr

/-- The directory that has to be watched for the file. -/
def Subscription.directory (subscription : Subscription) : Path :=
  subscription.path.parent

/-- A subscription as messages show it. -/
def Subscription.render (subscription : Subscription) : String :=
  "Subscription(" ++ Text.quoted subscription.path ++ ", "
    ++ (if subscription.active then "active" else "cancelled") ++ ")"

/-- What a watcher asks of the observer of the file system. -/
inductive ObserverCall where
  | schedule (directory : Path)
  | unschedule (directory : Path)
  | start
  | stop
  | join
deriving DecidableEq, Repr

/-- A call as messages show it. -/
def ObserverCall.render : ObserverCall → String
  | .schedule directory => "schedule " ++ directory
  | .unschedule directory => "unschedule " ++ directory
  | .start => "start"
  | .stop => "stop"
  | .join => "join"

/-- The state of a watch. -/
structure Watcher where
  subscriptions : List Subscription := []
  /-- The directories with a watch. -/
  directories : List Path := []
  /-- The calls to the observer so far. -/
  calls : List ObserverCall := []
  /-- The observer runs. -/
  started : Bool := false
  /-- No change is served any more. -/
  stopped : Bool := false
  /-- A rebuild is running. -/
  rebuilding : Bool := false
  /-- Another rebuild has to follow the running one. -/
  pending : Bool := false
  /-- The number of rebuilds that succeeded. -/
  rebuildCount : Nat := 0
  /-- Why the last rebuild failed. -/
  failure : Option Error := none
deriving DecidableEq, Repr

namespace Watcher

/-- The paths that have a subscription, in the order in which they were subscribed. -/
def paths (watcher : Watcher) : List Path :=
  watcher.subscriptions.map (·.path)

/-- The paths whose subscriptions are served, in the order of their texts. -/
def watched (watcher : Watcher) : List Path :=
  ((watcher.subscriptions.filter (·.active)).map (·.path)).mergeSort fun a b => a ≤ b

/-- The path has a subscription that is served. -/
def serves (watcher : Watcher) (path : Path) : Bool :=
  watcher.subscriptions.any fun subscription => subscription.path = path && subscription.active

/-- One more call to the observer. -/
def call (watcher : Watcher) (call : ObserverCall) : Watcher :=
  { watcher with calls := watcher.calls ++ [call] }

/-- Watches a directory, unless that is done already. -/
def schedule (watcher : Watcher) (directory : Path) : Watcher :=
  if directory ∈ watcher.directories then watcher
  else { watcher.call (.schedule directory) with directories := watcher.directories ++ [directory] }

/-- Stops watching a directory. -/
def unschedule (watcher : Watcher) (directory : Path) : Watcher :=
  { watcher.call (.unschedule directory) with
    directories := watcher.directories.erase directory }

/-- Subscribes a path that has no subscription yet. -/
def subscribe (watcher : Watcher) (path : Path) : Watcher :=
  let subscription : Subscription := { path }
  { watcher.schedule subscription.directory with
    subscriptions := watcher.subscriptions ++ [subscription] }

/-- Drops the subscription of a path, and the watch of its directory if that was the last one. -/
def unsubscribe (watcher : Watcher) (path : Path) : Watcher :=
  let kept := watcher.subscriptions.filter (·.path ≠ path)
  let watcher := { watcher with subscriptions := kept }
  if kept.any (·.directory = path.parent) then watcher else watcher.unschedule path.parent

/-- The subscribed paths that are not listed, in the order of their texts. -/
def leaving (watcher : Watcher) (paths : List Path) : List Path :=
  (watcher.paths.filter (· ∉ paths)).mergeSort fun a b => a ≤ b

/-- The listed paths that are not subscribed, each once. -/
def joining (watcher : Watcher) (paths : List Path) : List Path :=
  (paths.filter (· ∉ watcher.paths)).eraseDups

/-- Makes the subscribed paths those of the list. -/
def sync (watcher : Watcher) (paths : List Path) : Watcher :=
  (watcher.joining paths).foldl subscribe ((watcher.leaving paths).foldl unsubscribe watcher)

/-- Stops serving the subscription of a path. The subscription stays. -/
def cancel (watcher : Watcher) (path : Path) : Watcher :=
  { watcher with
    subscriptions := watcher.subscriptions.map fun subscription =>
      if subscription.path = path then { subscription with active := false } else subscription }

/-- Starts the observer. -/
def start (watcher : Watcher) : Watcher :=
  { watcher.call .start with started := true }

/-- Ends the watch, and the observer if it runs. -/
def stop (watcher : Watcher) : Watcher :=
  let watcher := { watcher with stopped := true }
  if watcher.started then { (watcher.call .stop).call .join with started := false } else watcher

/-- Begins a rebuild. -/
def begin (watcher : Watcher) : Watcher :=
  { watcher with rebuilding := true }

/-- Asks for another rebuild after the running one. -/
def queue (watcher : Watcher) : Watcher :=
  { watcher with pending := true }

/-- Takes up the rebuild that was asked for. -/
def dequeue (watcher : Watcher) : Watcher :=
  { watcher with pending := false }

/-- Ends a rebuild after which no other was asked for. -/
def settle (watcher : Watcher) : Watcher :=
  { watcher with rebuilding := false }

/-- Ends the watch because a rebuild failed. Rebuilds that were asked for are dropped. -/
def fail (watcher : Watcher) (error : Error) : Watcher :=
  { watcher with rebuilding := false, pending := false, failure := some error, stopped := true }

/-- Counts a rebuild that succeeded. -/
def count (watcher : Watcher) : Watcher :=
  { watcher with rebuildCount := watcher.rebuildCount + 1 }

@[simp] theorem paths_schedule (watcher : Watcher) (directory : Path) :
    (watcher.schedule directory).paths = watcher.paths := by
  unfold schedule; split <;> rfl

/-- A subscription is the last one. -/
@[simp] theorem paths_subscribe (watcher : Watcher) (path : Path) :
    (watcher.subscribe path).paths = watcher.paths ++ [path] := by
  simp [subscribe, paths]

@[simp] theorem paths_unsubscribe (watcher : Watcher) (path : Path) :
    (watcher.unsubscribe path).paths = watcher.paths.filter (· ≠ path) := by
  have kept : (watcher.subscriptions.filter (·.path ≠ path)).map (·.path) =
      watcher.paths.filter (· ≠ path) := by
    simp [paths, List.filter_map, Function.comp_def]
  unfold unsubscribe
  dsimp only
  split <;> exact kept

theorem mem_leaving {watcher : Watcher} {paths : List Path} {path : Path} :
    path ∈ watcher.leaving paths ↔ path ∈ watcher.paths ∧ path ∉ paths := by
  simp [leaving, List.mem_mergeSort]

theorem mem_joining {watcher : Watcher} {paths : List Path} {path : Path} :
    path ∈ watcher.joining paths ↔ path ∈ paths ∧ path ∉ watcher.paths := by
  simp [joining]

/-- A cancelled subscription keeps its place. -/
@[simp] theorem paths_cancel (watcher : Watcher) (path : Path) :
    (watcher.cancel path).paths = watcher.paths := by
  simp only [cancel, paths, List.map_map]
  refine List.map_congr_left fun subscription _ => ?_
  simp only [Function.comp_apply]
  split <;> rfl

private theorem mem_paths_foldl_unsubscribe {leaving : List Path} {watcher : Watcher}
    {path : Path} :
    path ∈ (leaving.foldl unsubscribe watcher).paths ↔ path ∈ watcher.paths ∧ path ∉ leaving := by
  induction leaving generalizing watcher with
  | nil => simp
  | cons first rest ih => rw [List.foldl_cons, ih]; simp [and_assoc]

private theorem mem_paths_foldl_subscribe {joining : List Path} {watcher : Watcher} {path : Path} :
    path ∈ (joining.foldl subscribe watcher).paths ↔ path ∈ watcher.paths ∨ path ∈ joining := by
  induction joining generalizing watcher with
  | nil => simp
  | cons first rest ih => rw [List.foldl_cons, ih]; simp [or_assoc]

/-- After `sync`, exactly the listed paths are subscribed. -/
theorem mem_paths_sync {watcher : Watcher} {paths : List Path} {path : Path} :
    path ∈ (watcher.sync paths).paths ↔ path ∈ paths := by
  rw [sync, mem_paths_foldl_subscribe, mem_paths_foldl_unsubscribe, mem_leaving, mem_joining]
  by_cases listed : path ∈ paths <;> by_cases subscribed : path ∈ watcher.paths <;>
    simp [listed, subscribed]

end Watcher

end Bundler
