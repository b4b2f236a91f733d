import Bundler.Proofs.Rebuild

/-!
# Subscriptions after `sync`

`sync` keeps the subscriptions of the listed paths as they are, and adds one for each other listed
path (`Watcher.subscriptions_sync`). So afterwards exactly the listed paths have a subscription, and
those of them are watched whose subscription was not cancelled before (`Session.sync_watches`). A
cancelled subscription is in the way of a new one: its path is not watched although it is listed
(`Session.cancelled_not_renewed`).
-/

namespace Bundler

namespace Watcher

variable {watcher : Watcher} {paths : List Path} {path : Path}

/-- After `sync`, a listed path is watched, unless its subscription was cancelled before. -/
theorem mem_watched_sync : path ∈ (watcher.sync paths).watched ↔
    path ∈ paths ∧ (path ∈ watcher.watched ∨ path ∉ watcher.paths) := by
  simp only [mem_watched, subscriptions_sync, List.mem_append, List.mem_filter, List.mem_map,
    decide_eq_true_eq]
  constructor
  · rintro ⟨subscription, ⟨hs, hp⟩ | ⟨joined, hj, rfl⟩, hactive, rfl⟩
    · exact ⟨hp, .inl ⟨subscription, hs, hactive, rfl⟩⟩
    · obtain ⟨hp, hnew⟩ := mem_joining.1 hj
      exact ⟨hp, .inr hnew⟩
  · rintro ⟨hp, ⟨subscription, hs, hactive, rfl⟩ | hnew⟩
    · exact ⟨subscription, .inl ⟨hs, hp⟩, hactive, rfl⟩
    · exact ⟨⟨path, true⟩, .inr ⟨path, mem_joining.2 ⟨hp, hnew⟩, rfl⟩, rfl, rfl⟩

end Watcher

namespace Session

variable {session : Session} {path : Path}

/-- The session with the notice that a file changed. -/
def noted (path : Path) (session : Session) : Session :=
  let notice := "[" ++ session.host.now.render ++ "] Change detected in: "
    ++ session.host.display (session.host.workspace.absolute path)
  { session with host := session.host.info notice }

/-- A notification leads to a rebuild if the session heeds the path, and to nothing else. -/
theorem notify_eq (engine : Engine) (path : Path) (session : Session) :
    session.notify engine path =
      if session.heeds path then ((session.noted path).rebuild engine, true)
      else (session, false) := rfl

/-- The session heeds the paths that are watched, until it is stopped. -/
theorem heeds_iff : session.heeds path = true ↔
    session.host.workspace.absolute path ∈ session.watcher.watched ∧
      session.watcher.stopped = false := by
  rw [heeds, Bool.and_eq_true, Watcher.serves_iff_mem_watched, Bool.not_eq_true']

/-- After `sync`, exactly the listed paths have a subscription. Those of them are watched that were
watched before or had none, and a notification leads to a rebuild if it is about one of these and
the session is not stopped. -/
theorem sync_watches (session : Session) (paths : List Path) :
    (∀ path, path ∈ (session.sync paths).watcher.paths ↔ path ∈ paths) ∧
    (∀ path, path ∈ (session.sync paths).watcher.watched ↔
      path ∈ paths ∧ (path ∈ session.watcher.watched ∨ path ∉ session.watcher.paths)) ∧
    ∀ engine path, (session.sync paths).notify engine path =
      if session.host.workspace.absolute path ∈ (session.sync paths).watcher.watched ∧
          session.watcher.stopped = false then
        (((session.sync paths).noted path).rebuild engine, true)
      else (session.sync paths, false) := by
  refine ⟨fun _ => Watcher.mem_paths_sync, fun _ => Watcher.mem_watched_sync,
    fun engine path => ?_⟩
  obtain ⟨_, _, _, hsync⟩ := Watcher.onTable_sync session.watcher paths
  have hstopped : (session.sync paths).watcher.stopped = session.watcher.stopped := by
    rw [watcher_sync, hsync]
  rw [notify_eq]
  refine if_congr ?_ rfl rfl
  rw [heeds_iff, workspace_sync, hstopped]

/-- The session of the pair when the subscription of its module `b` was cancelled. -/
def ofPairCancelled : Session :=
  (ofPairStarted.cancel "/w/b.js").1

/-- A cancelled subscription is in the way of a new one: `b` is not watched although it is listed,
and a notification of its change leads to nothing although the session is not stopped. -/
theorem cancelled_not_renewed : ofPairCancelled.watcher.Reachable ∧
    (ofPairCancelled.sync ["/w/b.js", "/w/a.js"]).watcher.watched = ["/w/a.js"] ∧
    (ofPairCancelled.sync ["/w/b.js", "/w/a.js"]).watcher.stopped = false ∧
    ((ofPairCancelled.sync ["/w/b.js", "/w/a.js"]).notify (.ofAgenda []) "/w/b.js").2 = false :=
  ⟨.run reachable_ofPairStarted [] (.cancel "/w/b.js"), by decide +kernel⟩

end Session

end Bundler
