import Bundler.Proofs.Bundle
import Bundler.Watch.Session

/-!
# What the operations of a session change

A watcher has a table of subscriptions, with what follows from it for the observer, and flags that
tell how far it is. `sync` works on the table alone (`Watcher.OnTable`), so the flags of a session
after a rebuild follow from those operations that are about flags. It keeps the subscriptions of the
listed paths and adds new ones (`Watcher.subscriptions_sync`). As long as no subscription was
cancelled, the watched paths are the subscribed ones (`Watcher.mem_watched_iff_mem_paths`), and
`sync` keeps this (`Watcher.allActive_sync`).
-/

namespace Bundler

namespace Watcher

variable {watcher other third : Watcher} {path : Path}

/-- The other watcher differs from this one in its table at most, and in what the observer was asked
for. -/
def OnTable (watcher other : Watcher) : Prop :=
  ∃ subscriptions directories calls,
    other = { watcher with subscriptions, directories, calls }

theorem OnTable.refl (watcher : Watcher) : watcher.OnTable watcher :=
  ⟨_, _, _, rfl⟩

theorem OnTable.trans (h : watcher.OnTable other) (h' : other.OnTable third) :
    watcher.OnTable third := by
  obtain ⟨_, _, _, rfl⟩ := h
  obtain ⟨subscriptions, directories, calls, rfl⟩ := h'
  exact ⟨subscriptions, directories, calls, rfl⟩

theorem onTable_subscribe (watcher : Watcher) (path : Path) :
    watcher.OnTable (watcher.subscribe path) := by
  unfold subscribe schedule
  dsimp only
  split <;> exact ⟨_, _, _, rfl⟩

theorem onTable_unsubscribe (watcher : Watcher) (path : Path) :
    watcher.OnTable (watcher.unsubscribe path) := by
  unfold unsubscribe
  dsimp only
  split <;> exact ⟨_, _, _, rfl⟩

/-- What subscribing and unsubscribing paths keeps, `sync` keeps. -/
theorem sync_induction {P : Watcher → Prop} (paths : List Path) (holds : P watcher)
    (unsubscribe : ∀ {watcher}, P watcher → ∀ path, P (watcher.unsubscribe path))
    (subscribe : ∀ {watcher}, P watcher → ∀ path, P (watcher.subscribe path)) :
    P (watcher.sync paths) := by
  have hleft : P ((watcher.leaving paths).foldl Watcher.unsubscribe watcher) :=
    List.foldlRecOn _ _ holds fun _ h path _ => unsubscribe h path
  exact List.foldlRecOn _ _ hleft fun _ h path _ => subscribe h path

/-- `sync` works on the table. -/
theorem onTable_sync (watcher : Watcher) (paths : List Path) :
    watcher.OnTable (watcher.sync paths) :=
  sync_induction paths (.refl watcher) (fun h path => h.trans (onTable_unsubscribe _ path))
    fun h path => h.trans (onTable_subscribe _ path)

@[simp] theorem subscriptions_subscribe (watcher : Watcher) (path : Path) :
    (watcher.subscribe path).subscriptions = watcher.subscriptions ++ [⟨path, true⟩] := rfl

@[simp] theorem subscriptions_unsubscribe (watcher : Watcher) (path : Path) :
    (watcher.unsubscribe path).subscriptions =
      watcher.subscriptions.filter (·.path ≠ path) := by
  unfold unsubscribe
  dsimp only
  split <;> rfl

theorem subscriptions_foldl_subscribe (joining : List Path) (watcher : Watcher) :
    (joining.foldl subscribe watcher).subscriptions =
      watcher.subscriptions ++ joining.map (⟨·, true⟩) := by
  induction joining generalizing watcher with
  | nil => simp
  | cons path rest ih => rw [List.foldl_cons, ih]; simp

theorem subscriptions_foldl_unsubscribe (leaving : List Path) (watcher : Watcher) :
    (leaving.foldl unsubscribe watcher).subscriptions =
      watcher.subscriptions.filter (·.path ∉ leaving) := by
  induction leaving generalizing watcher with
  | nil => simp
  | cons path rest ih =>
    rw [List.foldl_cons, ih, subscriptions_unsubscribe, List.filter_filter]
    refine List.filter_congr fun subscription _ => ?_
    simp [Bool.and_comm]

/-- Of the subscriptions, `sync` keeps those of listed paths, and it adds one for each other listed
path. -/
theorem subscriptions_sync (watcher : Watcher) (paths : List Path) :
    (watcher.sync paths).subscriptions =
      watcher.subscriptions.filter (·.path ∈ paths) ++
        (watcher.joining paths).map (⟨·, true⟩) := by
  have hkept : watcher.subscriptions.filter (·.path ∉ watcher.leaving paths) =
      watcher.subscriptions.filter (·.path ∈ paths) := by
    refine List.filter_congr fun subscription hs => decide_eq_decide.2 ?_
    have hm : subscription.path ∈ watcher.paths := List.mem_map_of_mem hs
    simp [mem_leaving, hm]
  rw [sync, subscriptions_foldl_subscribe, subscriptions_foldl_unsubscribe, hkept]

/-- To stop a watcher is about the observer and one flag. -/
theorem exists_stop_eq (watcher : Watcher) :
    ∃ calls started, watcher.stop = { watcher with calls, started, stopped := true } := by
  unfold stop
  dsimp only
  split <;> exact ⟨_, _, rfl⟩

/-- No subscription was cancelled. -/
def AllActive (watcher : Watcher) : Prop :=
  ∀ subscription ∈ watcher.subscriptions, subscription.active = true

/-- `sync` only drops subscriptions and adds new ones. -/
theorem allActive_sync (h : watcher.AllActive) (paths : List Path) :
    (watcher.sync paths).AllActive := by
  intro subscription hs
  rw [subscriptions_sync] at hs
  rcases List.mem_append.1 hs with hs | hs
  · exact h subscription (List.mem_filter.1 hs).1
  · obtain ⟨path, -, rfl⟩ := List.mem_map.1 hs
    rfl

/-- A path is watched if it has a subscription that was not cancelled. -/
theorem mem_watched : path ∈ watcher.watched ↔
    ∃ subscription ∈ watcher.subscriptions, subscription.active = true ∧
      subscription.path = path := by
  simp [watched, List.mem_mergeSort, and_assoc]

/-- The watched paths are those that are served. -/
theorem serves_iff_mem_watched : watcher.serves path = true ↔ path ∈ watcher.watched := by
  simp [mem_watched, serves, and_comm]

/-- If no subscription was cancelled, the watched paths are the subscribed ones. -/
theorem mem_watched_iff_mem_paths (h : watcher.AllActive) :
    path ∈ watcher.watched ↔ path ∈ watcher.paths := by
  rw [mem_watched, paths, List.mem_map]
  constructor
  · rintro ⟨subscription, hs, -, he⟩
    exact ⟨subscription, hs, he⟩
  · rintro ⟨subscription, hs, he⟩
    exact ⟨subscription, hs, h subscription hs, he⟩

end Watcher

namespace Session

variable {session : Session} {bundle : Bundle} {paths : List Path}

@[simp] theorem workspace_sync : (session.sync paths).host.workspace = session.host.workspace := by
  simp [sync]

@[simp] theorem watcher_sync : (session.sync paths).watcher = session.watcher.sync paths := rfl

/-- A rebuild that succeeds leaves the files to the build. -/
@[simp] theorem workspace_succeed :
    (session.succeed bundle).host.workspace = session.host.workspace := by
  unfold succeed
  dsimp only
  split
  · exact workspace_sync
  · rfl

@[simp] theorem config_succeed : (session.succeed bundle).config = session.config := by
  unfold succeed
  dsimp only
  split <;> rfl

@[simp] theorem builds_succeed : (session.succeed bundle).builds = session.builds := by
  unfold succeed
  dsimp only
  split <;> rfl

/-- A rebuild that succeeds is counted, and else it is about the table at most. -/
theorem onTable_succeed (session : Session) (bundle : Bundle) :
    session.watcher.count.OnTable (session.succeed bundle).watcher := by
  unfold succeed
  dsimp only
  split
  · exact Watcher.onTable_sync _ _
  · exact .refl _

/-- If the watched files are refreshed, the modules are subscribed after a rebuild. -/
theorem watcher_succeed_of_refresh (h : session.config.refreshWatches = true) :
    (session.succeed bundle).watcher = session.watcher.count.sync bundle.modules := by
  unfold succeed
  dsimp only
  rw [if_pos h]
  rfl

/-- A session whose entry `a` imports `b`. -/
def ofPair : Session where
  host := {
    workspace := .ofSources [("a.js", "import b from './b';"), ("b.js", "var b = 1;")]
    now := ⟨2024, 3, 5, 7, 8, 9⟩ }
  config := { entry := "a.js", output := "dist/bundle.js" }

/-- The session of the pair when it has started. -/
def ofPairStarted : Session :=
  (ofPair.start (.ofAgenda [])).1

end Session

end Bundler
