import Bundler.Proofs.Directories

/-!
# The watches that `sync` changes

`sync` drops the leaving paths before it adds the joining ones. So first the watches go whose
directories hold none of the paths that stay (`Mirrors.calls_thinned`), and then the watches come of
those directories that hold listed paths and are not watched any more (`Mirrors.calls_joined`). Each
of them is asked for once. A directory that keeps one of its subscribed paths is left alone, but one
whose paths are all replaced by others loses its watch and gets it back
(`Watcher.Moment.calls_sync`, `Session.watch_interrupted`).
-/

namespace Bundler

namespace ObserverCall

variable {dropped added : List Path} {before after : Finset Path}

/-- Calls that drop watches are in order only if each drops another one. Together they drop what is
missing afterwards. -/
theorem dropped_of_foldlM (h : (dropped.map unschedule).foldlM next? before = some after) :
    dropped.Nodup ∧ after ⊆ before ∧
      ∀ directory, directory ∈ dropped ↔ directory ∈ before ∧ directory ∉ after := by
  induction dropped generalizing before with
  | nil =>
    cases h
    exact ⟨.nil, Finset.Subset.refl _, fun _ => by simp⟩
  | cons first rest ih =>
    rw [List.map_cons, List.foldlM_cons] at h
    obtain ⟨between, hfirst, hrest⟩ := Option.bind_eq_some_iff.1 h
    rw [next?] at hfirst
    split at hfirst
    · next hwatched =>
      cases hfirst
      obtain ⟨hnodup, hsub, hmem⟩ := ih hrest
      have hgone : first ∉ after := fun ha => Finset.notMem_erase first before (hsub ha)
      have hnew : first ∉ rest := fun hr => Finset.notMem_erase first before ((hmem first).1 hr).1
      refine ⟨List.nodup_cons.2 ⟨hnew, hnodup⟩, hsub.trans (Finset.erase_subset _ _), ?_⟩
      intro directory
      rw [List.mem_cons, hmem, Finset.mem_erase]
      by_cases hsame : directory = first
      · simp [hsame, hwatched, hgone]
      · simp [hsame]
    · cases hfirst

/-- Calls that ask for watches are in order only if each asks for another one. Together they ask for
what is there only afterwards. -/
theorem added_of_foldlM (h : (added.map schedule).foldlM next? before = some after) :
    added.Nodup ∧ before ⊆ after ∧
      ∀ directory, directory ∈ added ↔ directory ∈ after ∧ directory ∉ before := by
  induction added generalizing before with
  | nil =>
    cases h
    exact ⟨.nil, Finset.Subset.refl _, fun _ => by simp⟩
  | cons first rest ih =>
    rw [List.map_cons, List.foldlM_cons] at h
    obtain ⟨between, hfirst, hrest⟩ := Option.bind_eq_some_iff.1 h
    rw [next?] at hfirst
    split at hfirst
    · cases hfirst
    · next hfree =>
      cases hfirst
      obtain ⟨hnodup, hsub, hmem⟩ := ih hrest
      have hthere : first ∈ after := hsub (Finset.mem_insert_self first before)
      have hnew : first ∉ rest := fun hr => ((hmem first).1 hr).2 (Finset.mem_insert_self _ _)
      refine ⟨List.nodup_cons.2 ⟨hnew, hnodup⟩, (Finset.subset_insert _ _).trans hsub, ?_⟩
      intro directory
      rw [List.mem_cons, hmem, Finset.mem_insert]
      by_cases hsame : directory = first
      · simp [hsame, hthere, hfree]
      · simp [hsame]

end ObserverCall

/-- The directory holds one of the paths. -/
def Path.Holds (directory : Path) (paths : List Path) : Prop :=
  ∃ path ∈ paths, path.parent = directory

instance (directory : Path) (paths : List Path) : Decidable (directory.Holds paths) :=
  inferInstanceAs (Decidable (∃ path ∈ paths, path.parent = directory))

namespace Watcher

variable {watcher other : Watcher} {paths dropped added : List Path} {directory : Path}

/-- What the observer was asked for in between leads from the watches of the one to those of the
other. -/
theorem Ordered.foldlM_calls {asked : List ObserverCall} (h : watcher.Ordered) (ho : other.Ordered)
    (hcalls : other.calls = watcher.calls ++ asked) :
    asked.foldlM ObserverCall.next? watcher.directories.toFinset =
      some other.directories.toFinset := by
  have hreplay := ho.replay_eq
  rw [hcalls, ObserverCall.replay, List.foldlM_append] at hreplay
  obtain ⟨between, hbefore, hafter⟩ := Option.bind_eq_some_iff.1 hreplay
  cases hbefore.symm.trans h.replay_eq
  exact hafter

/-- To drop paths is to ask for no new watches. -/
theorem exists_dropped (leaving : List Path) (watcher : Watcher) : ∃ dropped : List Path,
    (leaving.foldl unsubscribe watcher).calls = watcher.calls ++ dropped.map .unschedule := by
  have hnone : watcher.calls = watcher.calls ++ List.map .unschedule [] := by simp
  refine List.foldlRecOn leaving unsubscribe
    (motive := fun reached => ∃ dropped, reached.calls = watcher.calls ++ dropped.map .unschedule)
    ⟨[], hnone⟩ ?_
  rintro between ⟨dropped, hcalls⟩ path -
  rcases unsubscribe_cases between path with ⟨heq, -⟩ | ⟨heq, -⟩ <;> rw [heq]
  · exact ⟨dropped, hcalls⟩
  · refine ⟨dropped ++ [path.parent], ?_⟩
    rw [List.map_append, ← List.append_assoc, ← hcalls]
    rfl

/-- To add paths is to drop no watches. -/
theorem exists_added (joining : List Path) (watcher : Watcher) : ∃ added : List Path,
    (joining.foldl subscribe watcher).calls = watcher.calls ++ added.map .schedule := by
  have hnone : watcher.calls = watcher.calls ++ List.map .schedule [] := by simp
  refine List.foldlRecOn joining subscribe
    (motive := fun reached => ∃ added, reached.calls = watcher.calls ++ added.map .schedule)
    ⟨[], hnone⟩ ?_
  rintro between ⟨added, hcalls⟩ path -
  unfold subscribe Watcher.schedule
  dsimp only
  split
  · exact ⟨added, hcalls⟩
  · refine ⟨added ++ [Subscription.directory { path }], ?_⟩
    rw [List.map_append, ← List.append_assoc, ← hcalls]
    rfl

/-- The watched directories are those that hold a subscribed path. -/
theorem Mirrors.mem_directories_iff (h : watcher.Mirrors) :
    directory ∈ watcher.directories.toFinset ↔ directory.Holds watcher.paths := by
  rw [List.mem_toFinset]
  exact h.mem_directories directory

/-- The subscribed paths that are listed, so that they stay subscribed. -/
def staying (watcher : Watcher) (paths : List Path) : List Path :=
  watcher.paths.filter (· ∈ paths)

/-- Amid `sync` exactly the directories are watched that hold a path that stays. -/
theorem Mirrors.mem_directories_thinned (h : watcher.Mirrors) :
    directory ∈ (watcher.thinned paths).directories.toFinset ↔
      directory.Holds (watcher.staying paths) := by
  rw [(h.thinned paths).mem_directories_iff]
  simp only [Path.Holds, mem_paths_thinned, staying, List.mem_filter, decide_eq_true_eq]

/-- First the watches are dropped of the directories that hold no path that stays. -/
theorem Mirrors.calls_thinned (h : watcher.Mirrors) (paths : List Path) : ∃ dropped : List Path,
    (watcher.thinned paths).calls = watcher.calls ++ dropped.map .unschedule ∧ dropped.Nodup ∧
      ∀ directory, directory ∈ dropped ↔
        directory.Holds watcher.paths ∧ ¬ directory.Holds (watcher.staying paths) := by
  obtain ⟨dropped, hcalls⟩ := exists_dropped (watcher.leaving paths) watcher
  have hleads := h.foldlM_calls (h.thinned paths).toOrdered hcalls
  obtain ⟨hnodup, -, hmem⟩ := ObserverCall.dropped_of_foldlM hleads
  refine ⟨dropped, hcalls, hnodup, fun directory => ?_⟩
  rw [hmem, h.mem_directories_iff, h.mem_directories_thinned]

/-- Then those are asked for of the directories that hold a listed path, but none that stays. -/
theorem Mirrors.calls_joined (h : watcher.Mirrors) (paths : List Path) : ∃ added : List Path,
    (watcher.sync paths).calls = (watcher.thinned paths).calls ++ added.map .schedule ∧
      added.Nodup ∧ ∀ directory, directory ∈ added ↔
        directory.Holds paths ∧ ¬ directory.Holds (watcher.staying paths) := by
  have hsynced := h.sync paths
  obtain ⟨added, hcalls⟩ := exists_added (watcher.joining paths) (watcher.thinned paths)
  have hleads := (h.thinned paths).foldlM_calls hsynced.toOrdered hcalls
  obtain ⟨hnodup, -, hmem⟩ := ObserverCall.added_of_foldlM hleads
  refine ⟨added, hcalls, hnodup, fun directory => ?_⟩
  rw [hmem, hsynced.mem_directories_iff, h.mem_directories_thinned]
  simp only [Path.Holds, mem_paths_sync]

/-- A directory that keeps a path holds it before and afterwards. -/
theorem holds_of_staying (h : directory.Holds (watcher.staying paths)) :
    directory.Holds watcher.paths ∧ directory.Holds paths := by
  obtain ⟨path, hp, rfl⟩ := h
  obtain ⟨hsubscribed, hlisted⟩ := List.mem_filter.1 hp
  exact ⟨⟨path, hsubscribed, rfl⟩, ⟨path, of_decide_eq_true hlisted, rfl⟩⟩

/-- Between any two operations, `sync` drops each watch once whose directory held a subscribed path
and holds none that stays, and then asks once for the watch of each directory that holds a listed
path and none that stays. So it changes the watches of those directories alone that lose their last
path or get their first one, exactly if no directory has all its paths replaced by others. -/
theorem Moment.calls_sync (h : watcher.Moment) (paths : List Path) :
    ∃ dropped added : List Path,
      (watcher.sync paths).calls =
          watcher.calls ++ (dropped.map .unschedule ++ added.map .schedule) ∧
        dropped.Nodup ∧ added.Nodup ∧
      (∀ directory, directory ∈ dropped ↔
        directory.Holds watcher.paths ∧ ¬ directory.Holds (watcher.staying paths)) ∧
      (∀ directory, directory ∈ added ↔
        directory.Holds paths ∧ ¬ directory.Holds (watcher.staying paths)) ∧
      ((∀ directory : Path,
          (directory ∈ dropped ↔ directory.Holds watcher.paths ∧ ¬ directory.Holds paths) ∧
          (directory ∈ added ↔ directory.Holds paths ∧ ¬ directory.Holds watcher.paths)) ↔
        ∀ directory : Path, directory.Holds watcher.paths → directory.Holds paths →
          directory.Holds (watcher.staying paths)) := by
  obtain ⟨dropped, hfirst, hd, hdropped⟩ := h.mirrors.calls_thinned paths
  obtain ⟨added, hsecond, ha, hadded⟩ := h.mirrors.calls_joined paths
  refine ⟨dropped, added, ?_, hd, ha, hdropped, hadded, ?_, ?_⟩
  · rw [hsecond, hfirst, List.append_assoc]
  · intro hspares directory hbefore hafter
    refine Classical.byContradiction fun hreplaced => ?_
    exact ((hspares directory).1.1 ((hdropped directory).2 ⟨hbefore, hreplaced⟩)).2 hafter
  · intro hkeeps directory
    have hstays : directory.Holds (watcher.staying paths) ↔
        directory.Holds watcher.paths ∧ directory.Holds paths :=
      ⟨holds_of_staying, fun hboth => hkeeps directory hboth.1 hboth.2⟩
    rw [hdropped, hadded, hstays]
    exact ⟨by tauto, by tauto⟩

end Watcher

/-- The entry `a` imports `b` of the directory `lib`, where `c` stands beside it. -/
def Workspace.annex : Workspace where
  files := ⟨[(["w"], .directory), (["w", "lib"], .directory),
    (["w", "a.js"], .file "import b from './lib/b';".toUTF8),
    (["w", "lib", "b.js"], .file "var b;".toUTF8), (["w", "lib", "c.js"], .file "var c;".toUTF8)]⟩
  cwd := "/w"

namespace Session

/-- A session of the annex. -/
def ofAnnex : Session where
  host := { workspace := .annex, now := ⟨2024, 3, 5, 7, 8, 9⟩ }
  config := { entry := "a.js", output := "dist/bundle.js" }

/-- The session of the annex when it has started. -/
def ofAnnexStarted : Session :=
  (ofAnnex.start (.ofAgenda [])).1

theorem moment_ofAnnexStarted : ofAnnexStarted.watcher.Moment :=
  Watcher.Moment.run (.new : Watcher.Moment ofAnnex.watcher) [] .start

/-- The working directory loses its only file, `new` gets one, and `lib` gets another one. -/
theorem calls_sync_annex : ofAnnexStarted.watcher.Moment ∧
    ∃ dropped added : List Path,
      (ofAnnexStarted.watcher.sync ["/w/new/d.js", "/w/lib/b.js", "/w/lib/c.js"]).calls =
          ofAnnexStarted.watcher.calls ++ (dropped.map .unschedule ++ added.map .schedule) ∧
        "/w" ∈ dropped ∧ "/w/new" ∈ added ∧ "/w/lib" ∉ dropped ∧ "/w/lib" ∉ added := by
  obtain ⟨dropped, added, hcalls, -, -, hdropped, hadded, -⟩ :=
    moment_ofAnnexStarted.calls_sync ["/w/new/d.js", "/w/lib/b.js", "/w/lib/c.js"]
  refine ⟨moment_ofAnnexStarted, dropped, added, hcalls, ?_⟩
  rw [hdropped, hadded, hdropped, hadded]
  decide +kernel

/-- The session of the annex when its entry imports `c` instead of `b`. -/
def ofAnnexReplaced : Session :=
  (ofAnnexStarted.edit (.write "a.js" "import c from './lib/c';".toUTF8)).1

/-- The watch of `lib` is dropped and asked for again, although the directory holds a subscribed
file before and afterwards. A rebuild after the edit does just that. -/
theorem watch_interrupted : ofAnnexReplaced.watcher.Moment ∧
    Path.Holds "/w/lib" ofAnnexReplaced.watcher.paths ∧
    Path.Holds "/w/lib" ["/w/lib/c.js", "/w/a.js"] ∧
    (ofAnnexReplaced.watcher.sync ["/w/lib/c.js", "/w/a.js"]).calls =
      ofAnnexReplaced.watcher.calls ++ [.unschedule "/w/lib", .schedule "/w/lib"] ∧
    (ofAnnexReplaced.notify (.ofAgenda []) "/w/a.js").1.watcher.calls =
      ofAnnexReplaced.watcher.calls ++ [.unschedule "/w/lib", .schedule "/w/lib"] :=
  ⟨moment_ofAnnexStarted, by decide +kernel⟩

end Session

end Bundler
