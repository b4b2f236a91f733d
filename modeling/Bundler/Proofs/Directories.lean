import Bundler.Proofs.Operations
import Bundler.Proofs.Syncing
import Mathlib.Data.Finset.Basic

/-!
# Directory watches

An observer is asked for watches of directories, one call after the other (`ObserverCall.replay`).
Between any two operations of a session, also between those that happen while builds run
(`Watcher.Moment`), exactly the directories of the subscribed paths are watched, and no call asked
for a watch that was there or dropped one that was not (`Watcher.Mirrors`). `sync` keeps this path
by path (`Mirrors.subscribe`, `Mirrors.unsubscribe`), the other operations leave the table alone.
-/

namespace Bundler

/-- The directories that are watched after one more call. None, if the call asks for a watch that is
there or drops one that is not. -/
def ObserverCall.next? (watched : Finset Path) : ObserverCall → Option (Finset Path)
  | .schedule directory => if directory ∈ watched then none else some (insert directory watched)
  | .unschedule directory => if directory ∈ watched then some (watched.erase directory) else none
  | .start | .stop | .join => some watched

/-- The directories that are watched after the calls, from none on. -/
def ObserverCall.replay (calls : List ObserverCall) : Option (Finset Path) :=
  calls.foldlM ObserverCall.next? ∅

/-- A last call comes after the others. -/
theorem ObserverCall.replay_concat (calls : List ObserverCall) (call : ObserverCall) :
    replay (calls ++ [call]) = (replay calls).bind fun watched => call.next? watched := by
  simp [replay, List.foldlM_append]

/-- A directory that is watched after a call was watched before, or the call asks for it. -/
theorem ObserverCall.mem_of_next? {call : ObserverCall} {before after : Finset Path}
    {directory : Path} (h : call.next? before = some after) (hd : directory ∈ after) :
    directory ∈ before ∨ call = .schedule directory := by
  cases call with
  | schedule added =>
    rw [next?] at h
    split at h
    · cases h
    · cases h
      rcases Finset.mem_insert.1 hd with rfl | hd
      · exact .inr rfl
      · exact .inl hd
  | unschedule dropped =>
    rw [next?] at h
    split at h
    · cases h
      exact .inl (Finset.mem_of_mem_erase hd)
    · cases h
  | start | stop | join =>
    cases h
    exact .inl hd

/-- Every directory that is watched was asked for. -/
theorem ObserverCall.schedule_mem_of_replay {calls : List ObserverCall} {watched : Finset Path}
    {directory : Path} (h : replay calls = some watched) (hd : directory ∈ watched) :
    .schedule directory ∈ calls := by
  induction calls using List.reverseRecOn generalizing watched with
  | nil =>
    cases h
    exact absurd hd (Finset.notMem_empty directory)
  | append_singleton calls call ih =>
    rw [replay_concat] at h
    obtain ⟨before, hbefore, hcall⟩ := Option.bind_eq_some_iff.1 h
    rcases mem_of_next? hcall hd with hd | rfl
    · exact List.mem_append_left _ (ih hbefore hd)
    · exact List.mem_append_right _ (List.mem_singleton_self _)

namespace Watcher

variable {watcher other : Watcher} {path directory : Path} {paths : List Path}

/-- Each call to the observer was in order, and together they lead to the watched directories. -/
structure Ordered (watcher : Watcher) : Prop where
  nodup_directories : watcher.directories.Nodup
  replay_eq : ObserverCall.replay watcher.calls = some watcher.directories.toFinset

/-- Only the directories and the calls matter. -/
theorem Ordered.of_eq (h : watcher.Ordered) (hd : other.directories = watcher.directories)
    (hc : other.calls = watcher.calls) : other.Ordered where
  nodup_directories := hd ▸ h.nodup_directories
  replay_eq := by rw [hc, hd, h.replay_eq]

/-- A call that is not about a directory is always in order. -/
theorem Ordered.call {call : ObserverCall} (h : watcher.Ordered)
    (idle : ∀ watched, call.next? watched = some watched) : (watcher.call call).Ordered where
  nodup_directories := h.nodup_directories
  replay_eq := by
    rw [Watcher.call, ObserverCall.replay_concat, h.replay_eq, Option.bind_some, idle]

theorem mem_directories_schedule {added : Path} : directory ∈ (watcher.schedule added).directories ↔
    directory ∈ watcher.directories ∨ directory = added := by
  unfold schedule
  split
  · next hm =>
    refine ⟨.inl, ?_⟩
    rintro (hd | rfl)
    · exact hd
    · exact hm
  · simp

theorem Ordered.schedule (h : watcher.Ordered) (directory : Path) :
    (watcher.schedule directory).Ordered := by
  unfold Watcher.schedule
  split
  · exact h
  · next new =>
    refine ⟨List.concat_eq_append ▸ h.nodup_directories.concat new, ?_⟩
    have hset : (watcher.directories ++ [directory]).toFinset =
        insert directory watcher.directories.toFinset := by
      ext other
      rw [List.mem_toFinset, List.mem_append, List.mem_singleton, Finset.mem_insert,
        List.mem_toFinset, or_comm]
    rw [Watcher.call, ObserverCall.replay_concat, h.replay_eq, Option.bind_some, hset]
    simp [ObserverCall.next?, new]

theorem mem_directories_unschedule {dropped : Path} (h : watcher.Ordered) :
    directory ∈ (watcher.unschedule dropped).directories ↔
      directory ∈ watcher.directories ∧ directory ≠ dropped := by
  rw [unschedule, h.nodup_directories.mem_erase_iff, and_comm]

theorem Ordered.unschedule (h : watcher.Ordered) (watched : directory ∈ watcher.directories) :
    (watcher.unschedule directory).Ordered where
  nodup_directories := h.nodup_directories.erase directory
  replay_eq := by
    have hset : (watcher.directories.erase directory).toFinset =
        watcher.directories.toFinset.erase directory := by
      ext other
      simp [h.nodup_directories.mem_erase_iff]
    rw [Watcher.unschedule, Watcher.call, ObserverCall.replay_concat, h.replay_eq,
      Option.bind_some, hset]
    simp [ObserverCall.next?, watched]

/-- The observer watches what the table says: no path has two subscriptions, and the directories
with a watch are those of the subscribed paths. -/
structure Mirrors (watcher : Watcher) : Prop extends watcher.Ordered where
  nodup_paths : watcher.paths.Nodup
  mem_directories : ∀ directory,
    directory ∈ watcher.directories ↔ ∃ path ∈ watcher.paths, path.parent = directory

theorem mirrors_new : ({} : Watcher).Mirrors where
  nodup_directories := .nil
  replay_eq := rfl
  nodup_paths := .nil
  mem_directories := by simp [paths]

/-- The directory of a path that is subscribed was asked for. -/
theorem Mirrors.schedule_mem_calls (h : watcher.Mirrors) (hp : path ∈ watcher.paths) :
    .schedule path.parent ∈ watcher.calls := by
  have hwatched : path.parent ∈ watcher.directories :=
    (h.mem_directories path.parent).2 ⟨path, hp, rfl⟩
  exact ObserverCall.schedule_mem_of_replay h.replay_eq (List.mem_toFinset.2 hwatched)

/-- A path that joins brings its directory with it. -/
theorem Mirrors.subscribe (h : watcher.Mirrors) (new : path ∉ watcher.paths) :
    (watcher.subscribe path).Mirrors where
  toOrdered := (h.toOrdered.schedule path.parent).of_eq rfl rfl
  nodup_paths := by
    rw [paths_subscribe, ← List.concat_eq_append]
    exact h.nodup_paths.concat new
  mem_directories directory := by
    have hsubscribe : (watcher.subscribe path).directories =
        (watcher.schedule path.parent).directories := rfl
    rw [hsubscribe, mem_directories_schedule, paths_subscribe, h.mem_directories directory]
    simp [or_and_right, exists_or, eq_comm]

/-- The watcher without the subscriptions of a path. -/
def without (watcher : Watcher) (path : Path) : Watcher :=
  { watcher with subscriptions := watcher.subscriptions.filter (·.path ≠ path) }

theorem mem_paths_without {other : Path} :
    other ∈ (watcher.without path).paths ↔ other ∈ watcher.paths ∧ other ≠ path := by
  simp only [without, paths, List.mem_map, List.mem_filter, decide_eq_true_eq]
  constructor
  · rintro ⟨found, ⟨hf, hne⟩, rfl⟩
    exact ⟨⟨found, hf, rfl⟩, hne⟩
  · rintro ⟨⟨found, hf, rfl⟩, hne⟩
    exact ⟨found, ⟨hf, hne⟩, rfl⟩

/-- With a subscription the watch of its directory goes, unless another path needs that. -/
theorem unsubscribe_cases (watcher : Watcher) (path : Path) :
    (watcher.unsubscribe path = watcher.without path ∧
      ∃ other ∈ (watcher.without path).paths, other.parent = path.parent) ∨
    (watcher.unsubscribe path = (watcher.without path).unschedule path.parent ∧
      ∀ other ∈ (watcher.without path).paths, other.parent ≠ path.parent) := by
  have hunsubscribe : watcher.unsubscribe path =
      if (watcher.without path).subscriptions.any (·.directory = path.parent) then
        watcher.without path
      else (watcher.without path).unschedule path.parent := rfl
  rw [hunsubscribe]
  split
  · next hany =>
    obtain ⟨found, hf, he⟩ := List.any_eq_true.1 hany
    exact .inl ⟨rfl, found.path, List.mem_map_of_mem hf, of_decide_eq_true he⟩
  · next hany =>
    refine .inr ⟨rfl, fun other ho he => hany ?_⟩
    obtain ⟨found, hf, rfl⟩ := List.mem_map.1 ho
    exact List.any_eq_true.2 ⟨found, hf, decide_eq_true he⟩

/-- A path that leaves takes its directory with it, unless that holds another subscribed path. -/
theorem Mirrors.unsubscribe (h : watcher.Mirrors) (subscribed : path ∈ watcher.paths) :
    (watcher.unsubscribe path).Mirrors := by
  have hordered : (watcher.without path).Ordered := h.toOrdered.of_eq rfl rfl
  have hnodup : (watcher.unsubscribe path).paths.Nodup := by
    rw [paths_unsubscribe]
    exact h.nodup_paths.filter _
  have hdirectories : ∀ directory, directory ∈ (watcher.without path).directories ↔
      ∃ other ∈ watcher.paths, other.parent = directory := h.mem_directories
  rcases unsubscribe_cases watcher path with ⟨heq, other, ho, he⟩ | ⟨heq, hlast⟩ <;>
    rw [heq] at hnodup ⊢
  · refine ⟨hordered, hnodup, fun directory => ?_⟩
    rw [hdirectories]
    constructor
    · rintro ⟨found, hf, rfl⟩
      by_cases hsame : found = path
      · exact ⟨other, ho, hsame ▸ he⟩
      · exact ⟨found, mem_paths_without.2 ⟨hf, hsame⟩, rfl⟩
    · rintro ⟨found, hf, rfl⟩
      exact ⟨found, (mem_paths_without.1 hf).1, rfl⟩
  · have hwatched : path.parent ∈ (watcher.without path).directories :=
      (hdirectories _).2 ⟨path, subscribed, rfl⟩
    refine ⟨hordered.unschedule hwatched, hnodup, fun directory => ?_⟩
    rw [mem_directories_unschedule hordered, hdirectories]
    constructor
    · rintro ⟨⟨found, hf, rfl⟩, hd⟩
      exact ⟨found, mem_paths_without.2 ⟨hf, fun hsame => hd (congrArg Path.parent hsame)⟩, rfl⟩
    · rintro ⟨found, hf, rfl⟩
      exact ⟨⟨found, (mem_paths_without.1 hf).1, rfl⟩, hlast found hf⟩

/-- Paths that are subscribed leave one after the other. -/
theorem Mirrors.foldl_unsubscribe {leaving : List Path} (h : watcher.Mirrors)
    (nodup : leaving.Nodup) (subscribed : ∀ path ∈ leaving, path ∈ watcher.paths) :
    (leaving.foldl Watcher.unsubscribe watcher).Mirrors := by
  induction leaving generalizing watcher with
  | nil => exact h
  | cons path rest ih =>
    obtain ⟨hnotin, hrest⟩ := List.nodup_cons.1 nodup
    refine ih (h.unsubscribe (subscribed path List.mem_cons_self)) hrest fun other ho => ?_
    rw [paths_unsubscribe]
    exact List.mem_filter.2 ⟨subscribed other (List.mem_cons_of_mem _ ho),
      decide_eq_true fun hsame => hnotin (hsame ▸ ho)⟩

/-- Paths that are new join one after the other. -/
theorem Mirrors.foldl_subscribe {joining : List Path} (h : watcher.Mirrors)
    (nodup : joining.Nodup) (new : ∀ path ∈ joining, path ∉ watcher.paths) :
    (joining.foldl Watcher.subscribe watcher).Mirrors := by
  induction joining generalizing watcher with
  | nil => exact h
  | cons path rest ih =>
    obtain ⟨hnotin, hrest⟩ := List.nodup_cons.1 nodup
    refine ih (h.subscribe (new path List.mem_cons_self)) hrest fun other ho hm => ?_
    rw [paths_subscribe] at hm
    rcases List.mem_append.1 hm with hm | hm
    · exact new other (List.mem_cons_of_mem _ ho) hm
    · exact hnotin (List.mem_singleton.1 hm ▸ ho)

theorem nodup_eraseDups : ∀ paths : List Path, paths.eraseDups.Nodup
  | [] => by simp
  | path :: rest => by
    rw [List.eraseDups_cons, List.nodup_cons]
    exact ⟨by simp, nodup_eraseDups _⟩
termination_by paths => paths.length
decreasing_by exact Nat.lt_succ_of_le (List.length_filter_le _ _)

/-- The watcher amid `sync`, where the leaving paths are dropped and none has joined yet. -/
def thinned (watcher : Watcher) (paths : List Path) : Watcher :=
  (watcher.leaving paths).foldl unsubscribe watcher

/-- Amid `sync` those paths are subscribed that were before and are listed. -/
theorem mem_paths_thinned :
    path ∈ (watcher.thinned paths).paths ↔ path ∈ watcher.paths ∧ path ∈ paths := by
  rw [thinned, Watcher.paths, subscriptions_foldl_unsubscribe, List.mem_map]
  simp only [List.mem_filter, decide_eq_true_eq, mem_leaving, not_and, not_not]
  constructor
  · rintro ⟨subscription, ⟨hs, hkept⟩, rfl⟩
    have hp : subscription.path ∈ watcher.paths := List.mem_map_of_mem hs
    exact ⟨hp, hkept hp⟩
  · rintro ⟨hp, hlisted⟩
    obtain ⟨subscription, hs, rfl⟩ := List.mem_map.1 hp
    exact ⟨subscription, ⟨hs, fun _ => hlisted⟩, rfl⟩

/-- Each leaving path is dropped once. -/
theorem Mirrors.thinned (h : watcher.Mirrors) (paths : List Path) :
    (watcher.thinned paths).Mirrors := by
  have hleaving : (watcher.leaving paths).Nodup :=
    (List.mergeSort_perm _ _).nodup_iff.2 (h.nodup_paths.filter _)
  exact h.foldl_unsubscribe hleaving fun _ hp => (mem_leaving.1 hp).1

/-- `sync` drops each leaving path once, and adds each joining one once. -/
theorem Mirrors.sync (h : watcher.Mirrors) (paths : List Path) : (watcher.sync paths).Mirrors :=
  (h.thinned paths).foldl_subscribe (nodup_eraseDups _) fun _ hj hp =>
    (mem_joining.1 hj).2 (mem_paths_thinned.1 hp).1

/-- The other operations leave the table and the watches alone. -/
theorem Mirrors.of_eq (h : watcher.Mirrors) (hp : other.paths = watcher.paths)
    (ho : other.Ordered) (hd : other.directories = watcher.directories) : other.Mirrors where
  toOrdered := ho
  nodup_paths := hp ▸ h.nodup_paths
  mem_directories := hp ▸ hd ▸ h.mem_directories

theorem Mirrors.stop (h : watcher.Mirrors) : watcher.stop.Mirrors := by
  have hcalls : ((watcher.call .stop).call .join).Ordered :=
    (h.toOrdered.call fun _ => rfl).call fun _ => rfl
  unfold Watcher.stop
  dsimp only
  split
  · exact h.of_eq rfl (hcalls.of_eq rfl rfl) rfl
  · exact h.of_eq rfl (h.toOrdered.of_eq rfl rfl) rfl

/-- The observer watches what the table says after each operation. -/
theorem Mirrors.operates {operation : Operation} (hop : Operates operation watcher other)
    (h : watcher.Mirrors) : other.Mirrors := by
  cases hop with
  | sync _ paths => exact h.sync paths
  | cancel _ path => exact h.of_eq (paths_cancel _ _) (h.toOrdered.of_eq rfl rfl) rfl
  | start =>
    have hcalls : (watcher.call .start).Ordered := h.toOrdered.call fun _ => rfl
    exact h.of_eq rfl (hcalls.of_eq rfl rfl) rfl
  | stop => exact h.stop
  | begin | queue | dequeue | settle | fail | count =>
    exact h.of_eq rfl (h.toOrdered.of_eq rfl rfl) rfl

/-- What a watcher can be like between any two operations of a session, also between those that
happen while builds run. The build of a start begins with the watcher as it is. -/
inductive Moment : Watcher → Prop where
  | new : Moment {}
  /-- A step of any kind was run, whatever accompanied the builds that it led to. -/
  | run {session : Session} (moment : Moment session.watcher) (agenda : Agenda) (step : Step) :
      Moment (step.run (.ofAgenda agenda) session).1.watcher
  /-- A rebuild has begun, and its first build runs. -/
  | begin {watcher : Watcher} (moment : Moment watcher) : Moment watcher.begin
  /-- A build of a rebuild has succeeded, and the one that was queued behind it runs. -/
  | next {session : Session} (moment : Moment session.watcher) (bundle : Bundle) :
      Moment (session.succeed bundle).watcher.dequeue

end Watcher

mutual

/-- Every step is one of those that may do anything. -/
theorem Step.within_any : ∀ step : Step, step.within (fun _ => true) = true
  | .edit _ | .rebuild | .notify _ | .event _ | .stop | .sync _ | .cancel _ | .start => rfl
  | .wait script => Bool.and_eq_true_iff.2 ⟨scriptWithin_any script, rfl⟩

theorem scriptWithin_any : ∀ script : List Step, scriptWithin (fun _ => true) script = true
  | [] => rfl
  | step :: rest => Bool.and_eq_true_iff.2 ⟨step.within_any, scriptWithin_any rest⟩

end

theorem Agenda.within_any (agenda : Agenda) : agenda.within (fun _ => true) = true :=
  List.all_eq_true.2 fun _ _ =>
    Bool.and_eq_true_iff.2 ⟨scriptWithin_any _, scriptWithin_any _⟩

namespace Watcher

variable {watcher : Watcher}

/-- Between any two operations the observer watches what the table says, and was asked for nothing
out of order. -/
theorem Moment.mirrors (h : watcher.Moment) : watcher.Mirrors := by
  induction h with
  | new => exact mirrors_new
  | run _ agenda step ih =>
    have he := Engine.within_ofAgenda (fun _ _ => rfl) agenda.within_any
    exact (step.does_run he _ step.within_any).goes.keeps (fun hop _ h => h.operates hop) ih
  | begin _ ih => exact ih.operates (.begin _)
  | @next session _ bundle ih =>
    have hdone : session.Does (fun _ => true) (session.succeed bundle) :=
      Session.does_succeed (fun _ _ => rfl) session bundle
    exact (hdone.goes.keeps (fun hop _ h => h.operates hop) ih).operates (.dequeue _)

end Watcher

/-- The entry `a` imports `b` of the directory `lib`, which imports `c` there. -/
def Workspace.library : Workspace where
  files := ⟨[(["w"], .directory), (["w", "lib"], .directory),
    (["w", "a.js"], .file "import b from './lib/b';".toUTF8),
    (["w", "lib", "b.js"], .file "import c from './c';".toUTF8),
    (["w", "lib", "c.js"], .file "var c;".toUTF8)]⟩
  cwd := "/w"

/-- A session of the library. -/
def Session.ofLibrary : Session where
  host := { workspace := .library, now := ⟨2024, 3, 5, 7, 8, 9⟩ }
  config := { entry := "a.js", output := "dist/bundle.js" }

/-- The session of the library amid the first build of a rebuild, where the files of the directory
were dropped one by one. -/
def Session.ofLibraryDropped : Session :=
  let started := (Session.ofLibrary.start (.ofAgenda [])).1
  let rebuilding := { started with watcher := started.watcher.begin }
  (rebuilding.sync ["/w/a.js", "/w/lib/b.js"]).sync ["/w/a.js"]

/-- The watch of the directory goes with the last of its files. -/
theorem Watcher.Moment.mirrors_library : Session.ofLibraryDropped.watcher.Mirrors ∧
    Session.ofLibraryDropped.watcher.calls =
      [.schedule "/w/lib", .schedule "/w", .start, .unschedule "/w/lib"] := by
  have hnew : Session.ofLibrary.watcher.Moment := .new
  have hbegun : (Session.ofLibrary.start (.ofAgenda [])).1.watcher.begin.Moment :=
    (hnew.run [] .start).begin
  have hdropped : Session.ofLibraryDropped.watcher.Moment :=
    (hbegun.run [] (.sync ["/w/a.js", "/w/lib/b.js"])).run [] (.sync ["/w/a.js"])
  exact ⟨hdropped.mirrors, by decide +kernel⟩

end Bundler
