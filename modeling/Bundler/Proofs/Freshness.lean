import Bundler.Proofs.Building
import Bundler.Proofs.Watching
import Mathlib.Data.Set.Insert

/-!
# A session is never stale

A course of a session is a sequence of steps that start it, change files, and ask for rebuilds, one
after the other (`Session.Course`). It counts the paths that were touched since the last build. As
long as none of them is watched, the output holds the bundle of the files as they are, and its
modules are watched (`Session.Fresh`). The invariant is `Session.Kept`: builds bring it about
(`Kept.of_build`), and changes to other files leave it, since a bundle depends on its modules alone.
-/

namespace Bundler

/-- The steps that ask for a rebuild. -/
def Step.IsTrigger : Step → Prop
  | .rebuild | .notify _ | .event _ => True
  | _ => False

namespace Session

/-- Where the bundles of the session are written. -/
def output (session : Session) : Path :=
  session.host.workspace.absolute session.config.output

/-- The output and the watched paths are those of the bundle that the files give. -/
def Fresh (session : Session) : Prop :=
  ∃ bundle, session.host.workspace.UpToDate session.config bundle ∧
    ∀ path, path ∈ session.watcher.watched ↔ path ∈ bundle.modules

/-- The bundle that the files give, if there is one, would not be written over a module of it. -/
def KeepsApart (session : Session) : Prop :=
  ∀ bundle, session.host.workspace.bundle session.config.extension session.config.entry =
    .ok bundle → Apart session.output bundle.modules

instance (session : Session) : Decidable session.KeepsApart :=
  match hb : session.host.workspace.bundle session.config.extension session.config.entry with
  | .error _ => isTrue fun _ h => nomatch hb.symm.trans h
  | .ok found =>
    decidable_of_iff (Apart session.output found.modules)
      ⟨fun apart _ h => Except.ok.inj (hb.symm.trans h) ▸ apart, fun apart => apart found hb⟩

/-- What a session can go through if its steps come one after the other, with the paths that were
touched since the last build. It refreshes the watched paths, no build fails and none finds its
output among the modules, and the output is not touched by anyone else. No path has a second slash
in front. -/
inductive Course : Session → Set Path → Prop where
  | start {session : Session} {bundle : Bundle}
      (rooted : session.host.workspace.cwd.isAbsolute = true)
      (refresh : session.config.refreshWatches = true) (single : session.output.root ≠ "//")
      (new : session.watcher = {}) (apart : session.KeepsApart)
      (started : (session.start (.ofAgenda [])).2 = .ok bundle) :
      Course (session.start (.ofAgenda [])).1 ∅
  | edit {session : Session} {edited : Set Path} (course : Course session edited) (change : Edit)
      (single : (session.host.workspace.absolute change.path).root ≠ "//")
      (free : session.output ∉ session.host.workspace.touched change)
      (made : (session.edit change).2 = .ok ()) :
      Course (session.edit change).1 (edited ∪ session.host.workspace.touched change)
  | refused {session : Session} {edited : Set Path} {change : Edit} {error : Error}
      (course : Course session edited) (refusal : (session.edit change).2 = .error error) :
      Course (session.edit change).1 edited
  | idle {session : Session} {edited : Set Path} (course : Course session edited) (step : Step)
      (trigger : step.IsTrigger)
      (same : (step.run (.ofAgenda []) session).1.builds = session.builds) :
      Course (step.run (.ofAgenda []) session).1 edited
  | build {session : Session} {edited : Set Path} (course : Course session edited) (step : Step)
      (trigger : step.IsTrigger) (apart : session.KeepsApart)
      (more : (step.run (.ofAgenda []) session).1.builds ≠ session.builds)
      (good : (step.run (.ofAgenda []) session).1.watcher.failure = none) :
      Course (step.run (.ofAgenda []) session).1 ∅

variable {session after : Session} {bundle : Bundle} {edited : Set Path} {step : Step}
  {change : Edit}

/-- What holds of a session all along a course. -/
structure Kept (session : Session) (edited : Set Path) : Prop where
  rooted : session.host.workspace.cwd.isAbsolute = true
  refresh : session.config.refreshWatches = true
  single : session.output.root ≠ "//"
  idle : session.watcher.rebuilding = false
  empty : session.watcher.pending = false
  serving : session.watcher.stopped = false
  active : session.watcher.AllActive
  canonical : ∀ path ∈ session.watcher.watched, path.Canonical
  current : (∀ path ∈ session.watcher.watched, path ∉ edited) →
    ∃ bundle, session.host.workspace.UpToDate session.config bundle ∧
      Apart session.output bundle.modules ∧
      ∀ path, path ∈ session.watcher.watched ↔ path ∈ bundle.modules

/-- A build that succeeds, with its modules subscribed, makes everything current. -/
theorem Kept.of_build {host : Host} (rooted : session.host.workspace.cwd.isAbsolute = true)
    (refresh : session.config.refreshWatches = true) (single : session.output.root ≠ "//")
    (apart : session.KeepsApart) (hb : session.host.build session.config = (host, .ok bundle))
    (hspace : after.host.workspace = host.workspace) (hconfig : after.config = session.config)
    (idle : after.watcher.rebuilding = false) (empty : after.watcher.pending = false)
    (serving : after.watcher.stopped = false) (active : after.watcher.AllActive)
    (hpaths : ∀ path, path ∈ after.watcher.paths ↔ path ∈ bundle.modules) : after.Kept ∅ := by
  have hbundle := (Host.build_eq_ok hb).1
  have hapart := apart bundle hbundle
  obtain ⟨hcwd, hdate⟩ := Host.upToDate_of_build hb rooted single hapart
  have houtput : after.output = session.output := by
    rw [output, hspace, hconfig, Workspace.absolute_congr hcwd, ← output]
  have hwatched : ∀ path, path ∈ after.watcher.watched ↔ path ∈ bundle.modules := fun path =>
    (Watcher.mem_watched_iff_mem_paths active).trans (hpaths path)
  exact {
    rooted := by rw [hspace, hcwd]; exact rooted
    refresh := by rw [hconfig]; exact refresh
    single := by rw [houtput]; exact single
    idle, empty, serving, active
    canonical := fun path hp =>
      Workspace.canonical_of_mem_modules rooted hbundle ((hwatched path).1 hp)
    current := fun _ => ⟨bundle, by rw [hspace, hconfig]; exact hdate,
      by rw [houtput]; exact hapart, hwatched⟩ }

/-- A session starts with a build. -/
theorem start_eq_ok (h : (session.start (.ofAgenda [])).2 = .ok bundle) :
    ∃ host, session.host.build session.config = (host, .ok bundle) ∧
      (session.start (.ofAgenda [])).1.host.workspace = host.workspace ∧
      (session.start (.ofAgenda [])).1.config = session.config ∧
      (session.start (.ofAgenda [])).1.watcher = (session.watcher.sync bundle.modules).start := by
  have hbuild : (Engine.ofAgenda []).build = Session.build := rfl
  unfold start at h ⊢
  rw [hbuild, build] at h ⊢
  cases hb : session.host.build session.config with
  | mk host built =>
    rw [hb] at h
    cases built with
    | error error => cases h
    | ok found =>
      cases h
      exact ⟨host, rfl, workspace_sync, rfl, rfl⟩

/-- A rebuild while none is running, and during which nothing happens, is a single build. -/
theorem rebuild_cases (idle : session.watcher.rebuilding = false)
    (empty : session.watcher.pending = false) :
    ∃ host built, session.host.build session.config = (host, built) ∧
      ∃ begun, begun = { session with
        host, builds := session.builds + 1, watcher := session.watcher.begin } ∧
      ((∃ error, built = .error error ∧ session.rebuild (.ofAgenda []) =
        { begun with watcher := begun.watcher.fail error }) ∨
      ∃ bundle, built = .ok bundle ∧ session.rebuild (.ofAgenda []) =
        { begun.succeed bundle with watcher := (begun.succeed bundle).watcher.settle }) := by
  have hrounds : (Engine.ofAgenda []).rounds = Session.rounds Session.build fun session =>
    { session with watcher := session.watcher.settle } := rfl
  rw [rebuild, if_neg (by simp [idle]), hrounds, rounds, build]
  dsimp only
  cases hb : session.host.build session.config with
  | mk host built =>
    refine ⟨host, built, rfl, _, rfl, ?_⟩
    cases built with
    | error error => exact .inl ⟨error, rfl, rfl⟩
    | ok bundle =>
      refine .inr ⟨bundle, rfl, ?_⟩
      obtain ⟨_, _, _, hwatcher⟩ := onTable_succeed
        { session with host, builds := session.builds + 1, watcher := session.watcher.begin } bundle
      dsimp only
      rw [if_neg]
      rw [hwatcher]
      exact Bool.eq_false_iff.1 empty

/-- So there is one build more. -/
theorem builds_rebuild (idle : session.watcher.rebuilding = false)
    (empty : session.watcher.pending = false) :
    (session.rebuild (.ofAgenda [])).builds = session.builds + 1 := by
  obtain ⟨_, _, -, begun, rfl, ⟨_, -, hrebuild⟩ | ⟨_, -, hrebuild⟩⟩ := rebuild_cases idle empty
  · rw [hrebuild]
  · rw [hrebuild]
    exact builds_succeed

/-- If the build succeeds, its modules are subscribed. -/
theorem rebuild_eq_ok (refresh : session.config.refreshWatches = true)
    (idle : session.watcher.rebuilding = false) (empty : session.watcher.pending = false)
    (good : (session.rebuild (.ofAgenda [])).watcher.failure = none) :
    ∃ host bundle, session.host.build session.config = (host, .ok bundle) ∧
      (session.rebuild (.ofAgenda [])).host.workspace = host.workspace ∧
      (session.rebuild (.ofAgenda [])).config = session.config ∧
      (session.rebuild (.ofAgenda [])).watcher =
        (session.watcher.begin.count.sync bundle.modules).settle := by
  obtain ⟨host, _, hb, begun, rfl, ⟨_, rfl, hrebuild⟩ | ⟨bundle, rfl, hrebuild⟩⟩ :=
    rebuild_cases idle empty <;> rw [hrebuild] at good ⊢
  · cases good
  · exact ⟨host, bundle, hb, workspace_succeed, config_succeed,
      congrArg Watcher.settle (watcher_succeed_of_refresh refresh)⟩

/-- A step that asks for a rebuild leads to one, or to nothing. -/
theorem run_trigger (engine : Engine) (trigger : step.IsTrigger) :
    (step.run engine session).1 = session ∨ ∃ host, host.workspace = session.host.workspace ∧
      (step.run engine session).1 = rebuild engine { session with host } := by
  have hnotify : ∀ path, (session.notify engine path).1 = session ∨
      ∃ host, host.workspace = session.host.workspace ∧
        (session.notify engine path).1 = rebuild engine { session with host } := by
    intro path
    unfold notify
    dsimp only
    split
    · exact .inr ⟨_, Host.workspace_info _ _, rfl⟩
    · exact .inl rfl
  cases step with
  | rebuild => exact .inr ⟨session.host, rfl, rfl⟩
  | notify path => exact hnotify path
  | event event =>
    have hrun : ((Step.event event).run engine session).1 = (session.dispatch engine event).1 := rfl
    rw [hrun]
    unfold dispatch
    split
    · split
      · next path _ => exact hnotify path
      · exact .inl rfl
    · exact .inl rfl
  | _ => exact absurd trigger id

/-- The start brings the invariant about. -/
theorem Kept.start (rooted : session.host.workspace.cwd.isAbsolute = true)
    (refresh : session.config.refreshWatches = true) (single : session.output.root ≠ "//")
    (new : session.watcher = {}) (apart : session.KeepsApart)
    (started : (session.start (.ofAgenda [])).2 = .ok bundle) :
    (session.start (.ofAgenda [])).1.Kept ∅ := by
  obtain ⟨host, hb, hspace, hconfig, hwatcher⟩ := start_eq_ok started
  obtain ⟨_, _, _, hsync⟩ := Watcher.onTable_sync session.watcher bundle.modules
  have hactive : session.watcher.AllActive := by
    rw [new]
    exact nofun
  refine .of_build rooted refresh single apart hb hspace hconfig ?_ ?_ ?_ ?_ ?_ <;> rw [hwatcher]
  · rw [hsync, new]; rfl
  · rw [hsync, new]; rfl
  · rw [hsync, new]; rfl
  · exact Watcher.allActive_sync hactive _
  · exact fun path => Watcher.mem_paths_sync

/-- A rebuild that succeeds keeps the invariant, and nothing is left of the changes before it. -/
theorem Kept.rebuild (h : session.Kept edited) (apart : session.KeepsApart)
    (good : (session.rebuild (.ofAgenda [])).watcher.failure = none) :
    (session.rebuild (.ofAgenda [])).Kept ∅ := by
  obtain ⟨host, bundle, hb, hspace, hconfig, hwatcher⟩ :=
    rebuild_eq_ok h.refresh h.idle h.empty good
  obtain ⟨_, _, _, hsync⟩ := Watcher.onTable_sync session.watcher.begin.count bundle.modules
  refine .of_build h.rooted h.refresh h.single apart hb hspace hconfig ?_ ?_ ?_ ?_ ?_ <;>
    rw [hwatcher]
  · rfl
  · rw [hsync]; exact h.empty
  · rw [hsync]; exact h.serving
  · have hactive : session.watcher.begin.count.AllActive := h.active
    exact Watcher.allActive_sync hactive _
  · exact fun path => Watcher.mem_paths_sync

/-- A step that asks for a rebuild keeps the invariant, and the changes as well if no build
begins. -/
theorem Kept.run_trigger (h : session.Kept edited) (trigger : step.IsTrigger) :
    ((step.run (.ofAgenda []) session).1.builds = session.builds →
      (step.run (.ofAgenda []) session).1.Kept edited) ∧
    ((step.run (.ofAgenda []) session).1.builds ≠ session.builds → session.KeepsApart →
      (step.run (.ofAgenda []) session).1.watcher.failure = none →
      (step.run (.ofAgenda []) session).1.Kept ∅) := by
  rcases Session.run_trigger (.ofAgenda []) trigger with hsame | ⟨host, hspace, hrun⟩
  · rw [hsame]
    exact ⟨fun _ => h, fun more => absurd rfl more⟩
  · have hbuilds : (Session.rebuild (.ofAgenda []) { session with host }).builds = session.builds + 1 :=
      builds_rebuild h.idle h.empty
    rw [hrun, hbuilds]
    refine ⟨fun same => absurd same (Nat.succ_ne_self _), fun _ apart good => ?_⟩
    -- What was told about the step is all that is new before the build.
    obtain ⟨space, console, clock, now⟩ := host
    have hspace : space = session.host.workspace := hspace
    subst hspace
    have hkept : ({ session with host := ⟨session.host.workspace, console, clock, now⟩ }).Kept
        edited :=
      ⟨h.rooted, h.refresh, h.single, h.idle, h.empty, h.serving, h.active, h.canonical, h.current⟩
    exact hkept.rebuild apart good

/-- A change to other files than the watched ones leaves everything current. -/
theorem Kept.edit (h : session.Kept edited)
    (single : (session.host.workspace.absolute change.path).root ≠ "//")
    (free : session.output ∉ session.host.workspace.touched change) :
    (session.edit change).1.Kept (edited ∪ session.host.workspace.touched change) := by
  have hcwd : (session.edit change).1.host.workspace.cwd = session.host.workspace.cwd :=
    Workspace.cwd_edit _ _
  have houtput : (session.edit change).1.output = session.output := Workspace.absolute_congr hcwd
  refine { h with
    rooted := by rw [hcwd]; exact h.rooted
    single := by rw [houtput]; exact h.single
    current := fun clean => ?_ }
  obtain ⟨bundle, hdate, hapart, hwatched⟩ := h.current fun path hp he =>
    clean path hp (.inl he)
  refine ⟨bundle, hdate.of_kept h.rooted hcwd fun path hp content hc => ?_,
    by rw [houtput]; exact hapart, hwatched⟩
  rcases List.mem_cons.1 hp with rfl | hp
  · exact Workspace.content?_edit h.rooted (Path.canonical_absolute h.rooted) h.single single free hc
  · have hwatch := (hwatched path).2 hp
    exact Workspace.content?_edit h.rooted (h.canonical path hwatch) (hapart.single path hp) single
      (fun ht => clean path hwatch (.inr ht)) hc

/-- So does a change that is refused. -/
theorem Kept.refused {error : Error} (h : session.Kept edited)
    (refusal : (session.edit change).2 = .error error) : (session.edit change).1.Kept edited := by
  have hpart : session.host.workspace.IsPartOf (session.edit change).1.host.workspace :=
    Workspace.isPartOf_edit_of_error refusal
  have houtput : (session.edit change).1.output = session.output :=
    Workspace.absolute_congr hpart.cwd_eq
  refine { h with
    rooted := by rw [hpart.cwd_eq]; exact h.rooted
    single := by rw [houtput]; exact h.single
    current := fun clean => ?_ }
  obtain ⟨bundle, hdate, hapart, hwatched⟩ := h.current clean
  exact ⟨bundle, hdate.of_kept h.rooted hpart.cwd_eq fun _ _ _ => hpart.content?,
    by rw [houtput]; exact hapart, hwatched⟩

/-- The invariant holds all along a course. -/
theorem Course.kept (h : Course session edited) : session.Kept edited := by
  induction h with
  | start rooted refresh single new apart started =>
    exact .start rooted refresh single new apart started
  | edit _ _ single free _ ih => exact ih.edit single free
  | refused _ refusal ih => exact ih.refused refusal
  | idle _ _ trigger same ih => exact (ih.run_trigger trigger).1 same
  | build _ _ trigger apart more good ih => exact (ih.run_trigger trigger).2 more apart good

/-- A notification of a watched path leads to a rebuild. -/
theorem Kept.notify_eq {path : Path} (h : session.Kept edited) (engine : Engine)
    (hp : path ∈ session.watcher.watched) : ∃ host, host.workspace = session.host.workspace ∧
      session.notify engine path = (Session.rebuild engine { session with host }, true) := by
  have hself : session.host.workspace.absolute path = path := (h.canonical path hp).absolute_eq
  have hserves : session.watcher.serves path = true := Watcher.serves_iff_mem_watched.2 hp
  unfold notify
  simp only [hself, hserves, h.serving, Bool.not_false, Bool.and_self, if_true]
  exact ⟨_, Host.workspace_info _ _, rfl⟩

/-- All along a course the session is fresh unless a watched path was touched since the last build,
and then it is enough to notify the session of the path. -/
theorem Course.fresh (h : Course session edited) :
    ((∀ path ∈ session.watcher.watched, path ∉ edited) → session.Fresh) ∧
    ∀ path ∈ session.watcher.watched, ∃ after, session.notify (.ofAgenda []) path = (after, true) ∧
      (session.KeepsApart → after.watcher.failure = none → after.Fresh) := by
  have hfresh : ∀ {session edited}, Course session edited →
      (∀ path ∈ session.watcher.watched, path ∉ edited) → session.Fresh := by
    intro session edited h clean
    obtain ⟨bundle, hdate, -, hwatched⟩ := h.kept.current clean
    exact ⟨bundle, hdate, hwatched⟩
  refine ⟨hfresh h, fun path hp => ?_⟩
  obtain ⟨host, -, hnotify⟩ := h.kept.notify_eq (.ofAgenda []) hp
  refine ⟨_, hnotify, fun apart good => ?_⟩
  have hrun : ((Step.notify path).run (.ofAgenda []) session).1 =
      Session.rebuild (.ofAgenda []) { session with host } := congrArg Prod.fst hnotify
  have hbuilds : (Session.rebuild (.ofAgenda []) { session with host }).builds = session.builds + 1 :=
    builds_rebuild h.kept.idle h.kept.empty
  have hcourse := h.build (.notify path) trivial apart
    (by rw [hrun, hbuilds]; exact Nat.succ_ne_self _) (by rw [hrun]; exact good)
  rw [hrun] at hcourse
  exact hfresh hcourse fun _ _ => Set.notMem_empty _

/-- In the session of the pair `b` gets another text, and the session is notified of that. -/
def ofPairNotified : Session :=
  ((ofPairStarted.edit (.write "b.js" "var b = 2;".toUTF8)).1.notify (.ofAgenda []) "b.js").1

/-- Another file that is made leaves the session fresh. -/
theorem Course.fresh_pair :
    (ofPairNotified.edit (.write "c.js" "var c;".toUTF8)).1.Fresh := by
  have hstart : Course ofPairStarted ∅ := by
    obtain ⟨hsingle, hapart, hstarted⟩ : ofPair.output.root ≠ "//" ∧ ofPair.KeepsApart ∧
        (ofPair.start (.ofAgenda [])).2 =
          .ok ⟨"/w/a.js", "var b = 1;", ["/w/b.js", "/w/a.js"]⟩ := by decide +kernel
    exact .start rfl rfl hsingle rfl hapart hstarted
  have hnotified : Course ofPairNotified ∅ := by
    obtain ⟨hsingle, hfree, hmade, hapart, hmore, hgood⟩ :
        (ofPairStarted.host.workspace.absolute "b.js").root ≠ "//" ∧
        ofPairStarted.output ≠ ofPairStarted.host.workspace.absolute "b.js" ∧
        (ofPairStarted.edit (.write "b.js" "var b = 2;".toUTF8)).2 = .ok () ∧
        (ofPairStarted.edit (.write "b.js" "var b = 2;".toUTF8)).1.KeepsApart ∧
        ofPairNotified.builds ≠ ofPairStarted.builds ∧
        ofPairNotified.watcher.failure = none := by decide +kernel
    have hchange := hstart.edit (.write "b.js" "var b = 2;".toUTF8) hsingle
      (fun h => hfree (Set.mem_singleton_iff.1 h)) hmade
    exact hchange.build (.notify "b.js") trivial hapart hmore hgood
  obtain ⟨hsingle, hfree, hmade, hserves⟩ :
      (ofPairNotified.host.workspace.absolute "c.js").root ≠ "//" ∧
      ofPairNotified.output ≠ ofPairNotified.host.workspace.absolute "c.js" ∧
      (ofPairNotified.edit (.write "c.js" "var c;".toUTF8)).2 = .ok () ∧
      ofPairNotified.watcher.serves (ofPairNotified.host.workspace.absolute "c.js") = false := by
    decide +kernel
  have hlater := hnotified.edit (.write "c.js" "var c;".toUTF8) hsingle
    (fun h => hfree (Set.mem_singleton_iff.1 h)) hmade
  refine hlater.fresh.1 fun path hp he => ?_
  rcases he with he | he
  · exact absurd he (Set.notMem_empty _)
  · have hwatched := Watcher.serves_iff_mem_watched.2 hp
    rw [Set.mem_singleton_iff.1 he] at hwatched
    exact Bool.noConfusion (hserves.symm.trans hwatched)

end Session

end Bundler
