import Bundler.Proofs.Freshness
import Bundler.Proofs.Syncing
import Bundler.Proofs.Writing

/-!
# File events

Someone changes files one after the other, and after each change the session is told of it by the
event that an observer reports (`FileChange.event`, `Session.attend`). An event about a watched path
leads to a rebuild, but no event is about a file that is gone: a removal is not forwarded, and a
move only for its destination. So, as long as no rebuild fails, the session is fresh exactly if all
watched files are there (`Attended.fresh_iff_present`), and a file that is removed leaves it stale
(`removal_dropped`). The invariant is `Session.Abreast`: a watched path that was touched since the
last build has no file any more, unless it is the one that the session is about to be told of.
-/

namespace Bundler

/-- A change to a file that an observer reports as one event. -/
inductive FileChange where
  | create (path : Path) (content : ByteArray)
  | overwrite (path : Path) (content : ByteArray)
  | delete (path : Path)
  /-- The file, with its content, gets another path. -/
  | rename (source destination : Path) (content : ByteArray)

namespace FileChange

/-- What the change does to the files. -/
def edits : FileChange → List Edit
  | create path content | overwrite path content => [.write path content]
  | delete path => [.delete path]
  | rename source destination content => [.delete source, .write destination content]

/-- The change is possible: a file is created where there is none, and else there is one. -/
def Fits (space : Workspace) : FileChange → Prop
  | create path _ => space.exists? path = false
  | overwrite path _ | delete path => ∃ content, space.content? path = some content
  | rename source _ content => space.content? source = some content

/-- The event that an observer reports after the change. -/
def event (space : Workspace) : FileChange → FileEvent
  | create path _ => { kind := .created, source := space.absolute path }
  | overwrite path _ => { kind := .modified, source := space.absolute path }
  | delete path => { kind := .deleted, source := space.absolute path }
  | rename source destination _ =>
    { kind := .moved (space.absolute destination), source := space.absolute source }

end FileChange

namespace Session

/-- Makes changes to the files in order, up to the first that is refused. -/
def editAll (session : Session) : List Edit → Session × Except Error Unit
  | [] => (session, .ok ())
  | change :: rest =>
    match session.edit change with
    | (after, .error error) => (after, .error error)
    | (after, .ok ()) => after.editAll rest

/-- The session when a file was changed and the event was dispatched. -/
def attend (session : Session) (change : FileChange) : Session :=
  ((session.editAll change.edits).1.dispatch (.ofAgenda [])
    (change.event session.host.workspace)).1

/-- What a session can go through if it starts, and then files are changed other than the output,
each change followed by its event. The session refreshes the watched paths, and the bundle that the
files give is never one that would be written over a module of it. No path has a second slash in
front. -/
inductive Attended : Session → Prop where
  | start {session : Session} {bundle : Bundle} (tree : session.host.workspace.files.IsTree)
      (rooted : session.host.workspace.cwd.isAbsolute = true)
      (refresh : session.config.refreshWatches = true) (single : session.output.root ≠ "//")
      (new : session.watcher = {}) (apart : session.KeepsApart)
      (started : (session.start (.ofAgenda [])).2 = .ok bundle) :
      Attended (session.start (.ofAgenda [])).1
  | change {session : Session} (attended : Attended session) (change : FileChange)
      (fits : change.Fits session.host.workspace)
      (single : ∀ edit ∈ change.edits, (session.host.workspace.absolute edit.path).root ≠ "//")
      (free : ∀ edit ∈ change.edits, session.host.workspace.absolute edit.path ≠ session.output)
      (made : (session.editAll change.edits).2 = .ok ())
      (apart : (session.editAll change.edits).1.KeepsApart) :
      Attended (session.attend change)

variable {session : Session} {bundle : Bundle} {reported : Option Path} {path : Path}
  {content : ByteArray}

/-- What holds of a session that was told of all changes, or of all but the one that is about to be
reported, as long as no rebuild has failed. -/
structure Abreast (session : Session) (reported : Option Path) : Prop where
  tree : session.host.workspace.files.IsTree
  good : session.watcher.failure = none
  single : ∀ path ∈ session.watcher.watched, path.root ≠ "//"
  course : ∃ edited, Course session edited ∧ ∀ path ∈ session.watcher.watched, path ∈ edited →
    session.host.workspace.content? path = none ∨ reported = some path

/-- When a build has succeeded, nothing is left of the changes before it. -/
theorem Abreast.of_course (tree : session.host.workspace.files.IsTree)
    (good : session.watcher.failure = none) (course : Course session ∅) :
    session.Abreast none where
  tree := tree
  good := good
  single path hp := by
    obtain ⟨bundle, -, hapart, hwatched⟩ := course.kept.current fun _ _ => Set.notMem_empty _
    exact hapart.single path ((hwatched path).1 hp)
  course := ⟨∅, course, fun _ _ he => absurd he (Set.notMem_empty _)⟩

/-! ## Changes -/

/-- A change keeps the session abreast if it brings no files but those that it touches, and if those
of them that are watched are gone afterwards, or will be reported. -/
theorem Abreast.edit (h : session.Abreast none) {change : Edit}
    (single : (session.host.workspace.absolute change.path).root ≠ "//")
    (free : session.output ∉ session.host.workspace.touched change)
    (made : (session.edit change).2 = .ok ())
    (back : ∀ path ∈ session.watcher.watched, path ∉ session.host.workspace.touched change →
      ∀ content, (session.host.workspace.edit change).1.content? path = some content →
        session.host.workspace.content? path = some content)
    (gone : ∀ path ∈ session.watcher.watched, path ∈ session.host.workspace.touched change →
      (session.host.workspace.edit change).1.content? path = none ∨ reported = some path) :
    (session.edit change).1.Abreast reported := by
  obtain ⟨edited, hcourse, hmissing⟩ := h.course
  refine ⟨Workspace.isTree_edit h.tree change, h.good, h.single, _,
    hcourse.edit change single free made, fun path hwatched hpath => ?_⟩
  by_cases htouched : path ∈ session.host.workspace.touched change
  · exact gone path hwatched htouched
  · have hnone := (hmissing path hwatched (hpath.resolve_right htouched)).resolve_right nofun
    refine .inl (Option.eq_none_iff_forall_ne_some.2 fun content hcontent => ?_)
    cases hnone.symm.trans (back path hwatched htouched content hcontent)

/-- A file that is removed is gone. -/
theorem Abreast.delete (h : session.Abreast none)
    (found : session.host.workspace.content? path = some content)
    (single : (session.host.workspace.absolute path).root ≠ "//")
    (free : session.host.workspace.absolute path ≠ session.output) :
    (session.edit (.delete path)).1.Abreast none := by
  obtain ⟨_, hcourse, -⟩ := h.course
  have htouched : session.host.workspace.touched (.delete path) =
      {session.host.workspace.absolute path} := by
    ext target
    simp [Workspace.touched, Workspace.get?_of_content? found]
  refine h.edit single ?_ rfl (fun _ _ _ _ => ?_) fun target _ htarget => .inl ?_
  · rw [htouched]
    exact fun hm => free (Set.mem_singleton_iff.1 hm).symm
  · exact (session.host.workspace.isPartOf_delete path).content?
  · rw [htouched] at htarget
    rw [Set.mem_singleton_iff.1 htarget]
    exact Workspace.content?_delete_self hcourse.kept.rooted found

/-- A file that is written has to be reported. -/
theorem Abreast.write (h : session.Abreast none)
    (single : (session.host.workspace.absolute path).root ≠ "//")
    (free : session.host.workspace.absolute path ≠ session.output)
    (made : (session.edit (.write path content)).2 = .ok ()) :
    (session.edit (.write path content)).1.Abreast
      (some (session.host.workspace.absolute path)) := by
  obtain ⟨_, hcourse, -⟩ := h.course
  have rooted := hcourse.kept.rooted
  refine h.edit single (fun hm => free (Set.mem_singleton_iff.1 hm).symm) made
    (fun target hwatched htarget _ => ?_)
    fun target _ htarget => .inr (congrArg some (Set.mem_singleton_iff.1 htarget).symm)
  have hc := hcourse.kept.canonical target hwatched
  refine Workspace.content?_of_writeThrough h.tree rooted hc fun hwalk => htarget ?_
  exact Set.mem_singleton_iff.2 (hc.eq_of_walk_eq (Path.canonical_absolute rooted)
    (h.single target hwatched) single hwalk)

/-! ## Events -/

/-- An event that tells of a file is possible. -/
theorem isPossible_of_changed? {event : FileEvent} (h : event.changed? = some path) :
    event.isPossible = true := by
  unfold FileEvent.changed? at h
  split at h
  · cases h
  · next hfile => simp [FileEvent.isPossible, hfile]

/-- An event that tells of a file notifies the session of it. -/
theorem dispatch_of_changed? {event : FileEvent} (engine : Engine)
    (h : event.changed? = some path) :
    (session.dispatch engine event).1 = (session.notify engine path).1 := by
  rw [dispatch, if_pos (isPossible_of_changed? h), h]

/-- Another event is dropped. -/
theorem dispatch_of_unchanged {event : FileEvent} (engine : Engine) (h : event.changed? = none) :
    (session.dispatch engine event).1 = session := by
  rw [dispatch, h]
  split <;> rfl

/-- An event leads to a rebuild if it tells of a watched path, and to nothing else. -/
theorem Kept.dispatch_cases {edited : Set Path} {event : FileEvent} (h : session.Kept edited)
    (engine : Engine)
    (self : ∀ path, event.changed? = some path → session.host.workspace.absolute path = path) :
    ((∀ path, event.changed? = some path → path ∉ session.watcher.watched) ∧
      (session.dispatch engine event).1 = session) ∨
    ∃ host, host.workspace = session.host.workspace ∧
      (session.dispatch engine event).1 = Session.rebuild engine { session with host } := by
  cases hchanged : event.changed? with
  | none => exact .inl ⟨nofun, dispatch_of_unchanged engine hchanged⟩
  | some path =>
    rw [dispatch_of_changed? engine hchanged]
    by_cases hwatched : path ∈ session.watcher.watched
    · obtain ⟨host, hspace, hnotify⟩ := h.notify_eq engine hwatched
      exact .inr ⟨host, hspace, congrArg Prod.fst hnotify⟩
    · have hheeds : ¬ session.heeds path = true := by
        rw [heeds_iff, self path hchanged]
        exact fun hheeded => hwatched hheeded.1
      rw [Session.notify_eq, if_neg hheeds]
      refine .inl ⟨fun other hother => ?_, rfl⟩
      cases hother
      exact hwatched

/-- A rebuild has failed, and the session has ended with its error. -/
def Failed (session : Session) : Prop :=
  session.watcher.failure.isSome = true ∧ session.watcher.stopped = true

/-- A rebuild of a session in which none has failed fails, or it succeeds and leaves a tree. -/
theorem rebuild_outcome (tree : session.host.workspace.files.IsTree)
    (good : session.watcher.failure = none) (idle : session.watcher.rebuilding = false)
    (empty : session.watcher.pending = false) :
    (session.rebuild (.ofAgenda [])).Failed ∨
      (session.rebuild (.ofAgenda [])).watcher.failure = none ∧
        (session.rebuild (.ofAgenda [])).host.workspace.files.IsTree := by
  obtain ⟨host, _, hb, begun, rfl, ⟨error, rfl, hrebuild⟩ | ⟨bundle, rfl, hrebuild⟩⟩ :=
    rebuild_cases idle empty <;> rw [hrebuild]
  · exact .inl ⟨rfl, rfl⟩
  · obtain ⟨_, _, _, hwatcher⟩ := onTable_succeed
      { session with host, builds := session.builds + 1, watcher := session.watcher.begin } bundle
    have htree := Host.isTree_build tree session.config
    rw [hb] at htree
    refine .inr ⟨?_, ?_⟩
    · dsimp only [Watcher.settle]
      rw [hwatcher]
      exact good
    · rwa [workspace_succeed]

/-- When the last change is reported, the session is abreast of all changes, or the rebuild that
this leads to fails. -/
theorem Abreast.dispatch {event : FileEvent} (h : session.Abreast event.changed?)
    (self : ∀ path, event.changed? = some path → session.host.workspace.absolute path = path)
    (apart : session.KeepsApart) :
    (session.dispatch (.ofAgenda []) event).1.Failed ∨
      (session.dispatch (.ofAgenda []) event).1.Abreast none := by
  obtain ⟨edited, hcourse, hmissing⟩ := h.course
  have hkept := hcourse.kept
  rcases hkept.dispatch_cases (.ofAgenda []) self with ⟨hunwatched, hrun⟩ | ⟨host, hspace, hrun⟩
  · -- No watched path is left to be reported.
    rw [hrun]
    refine .inr ⟨h.tree, h.good, h.single, edited, hcourse, fun path hwatched he => .inl ?_⟩
    rcases hmissing path hwatched he with hnone | hreported
    · exact hnone
    · exact absurd hwatched (hunwatched path hreported)
  · have htree : host.workspace.files.IsTree := hspace ▸ h.tree
    have hbuilds : (Session.rebuild (.ofAgenda []) { session with host }).builds =
        session.builds + 1 := builds_rebuild hkept.idle hkept.empty
    have hmore : (session.dispatch (.ofAgenda []) event).1.builds ≠ session.builds := by
      rw [hrun, hbuilds]
      exact Nat.succ_ne_self _
    have houtcome := @rebuild_outcome { session with host } htree h.good hkept.idle hkept.empty
    rw [← hrun] at houtcome
    rcases houtcome with hfailed | ⟨hgood, hafter⟩
    · exact .inl hfailed
    · exact .inr (.of_course hafter hgood (hcourse.build (.event event) trivial apart hmore hgood))

/-! ## Changes followed by their events -/

theorem editAll_nil : (session.editAll []).1 = session := rfl

/-- Where all of some changes are made, the first one is, and then the others. -/
theorem editAll_cons {change : Edit} {rest : List Edit}
    (made : (session.editAll (change :: rest)).2 = .ok ()) :
    (session.edit change).2 = .ok () ∧
      session.editAll (change :: rest) = (session.edit change).1.editAll rest := by
  cases hchange : session.edit change with
  | mk after result =>
    rw [editAll, hchange] at made ⊢
    cases result with
    | error error => cases made
    | ok => exact ⟨rfl, rfl⟩

/-- A change to a file leaves the session abreast of all but what is about to be reported. -/
theorem Abreast.editAll (h : session.Abreast none) {change : FileChange}
    (fits : change.Fits session.host.workspace)
    (single : ∀ edit ∈ change.edits, (session.host.workspace.absolute edit.path).root ≠ "//")
    (free : ∀ edit ∈ change.edits, session.host.workspace.absolute edit.path ≠ session.output)
    (made : (session.editAll change.edits).2 = .ok ()) :
    (session.editAll change.edits).1.Abreast (change.event session.host.workspace).changed? := by
  cases change with
  | create path content | overwrite path content =>
    obtain ⟨hmade, hedits⟩ := editAll_cons made
    have hsingle := single (.write path content) List.mem_cons_self
    have hfree := free (.write path content) List.mem_cons_self
    rw [FileChange.edits, hedits, editAll_nil]
    exact h.write hsingle hfree hmade
  | delete path =>
    obtain ⟨content, found⟩ := fits
    obtain ⟨-, hedits⟩ := editAll_cons made
    have hsingle := single (.delete path) List.mem_cons_self
    have hfree := free (.delete path) List.mem_cons_self
    rw [FileChange.edits, hedits, editAll_nil]
    exact h.delete found hsingle hfree
  | rename source destination content =>
    obtain ⟨-, hedits⟩ := editAll_cons made
    have hremoved := h.delete fits (single (.delete source) List.mem_cons_self)
      (free (.delete source) List.mem_cons_self)
    rw [FileChange.edits, hedits] at made ⊢
    obtain ⟨hmade, hwritten⟩ := editAll_cons made
    have hsingle := single (.write destination content) (by simp [FileChange.edits])
    have hfree := free (.write destination content) (by simp [FileChange.edits])
    have hcwd := Workspace.cwd_edit session.host.workspace (.delete source)
    have habsolute : (session.edit (.delete source)).1.host.workspace.absolute destination =
        session.host.workspace.absolute destination := Workspace.absolute_congr hcwd
    have houtput : (session.edit (.delete source)).1.output = session.output :=
      Workspace.absolute_congr hcwd
    rw [hwritten, editAll_nil]
    have hreported := hremoved.write (habsolute ▸ hsingle) (habsolute ▸ houtput ▸ hfree) hmade
    rwa [habsolute] at hreported

/-- The file that an event tells of is named by an absolute path. -/
theorem canonical_of_changed? {space : Workspace} (rooted : space.cwd.isAbsolute = true)
    {change : FileChange} (h : (change.event space).changed? = some path) : path.Canonical := by
  cases change <;> cases h <;> exact Path.canonical_absolute rooted

theorem watcher_editAll (changes : List Edit) (session : Session) :
    (session.editAll changes).1.watcher = session.watcher := by
  induction changes generalizing session with
  | nil => rfl
  | cons change rest ih =>
    have hwatcher : (session.edit change).1.watcher = session.watcher := rfl
    unfold editAll
    split
    · next hchange => rw [← hwatcher, hchange]
    · next hchange => rw [ih, ← hwatcher, hchange]

/-- When a rebuild has failed, the session heeds nothing any more. -/
theorem Failed.attend (h : session.Failed) (change : FileChange) :
    (session.attend change).Failed := by
  have hedited : (session.editAll change.edits).1.Failed := by
    rw [Failed, watcher_editAll]
    exact h
  unfold Session.attend
  cases hchanged : (change.event session.host.workspace).changed? with
  | none => rwa [dispatch_of_unchanged _ hchanged]
  | some path =>
    rw [dispatch_of_changed? _ hchanged, notify_eq, if_neg]
    · exact hedited
    · intro hheeds
      exact Bool.noConfusion ((heeds_iff.1 hheeds).2.symm.trans hedited.2)

/-- A session that starts has no failed rebuild, and its files are a tree. -/
theorem Abreast.start (tree : session.host.workspace.files.IsTree)
    (rooted : session.host.workspace.cwd.isAbsolute = true)
    (refresh : session.config.refreshWatches = true) (single : session.output.root ≠ "//")
    (new : session.watcher = {}) (apart : session.KeepsApart)
    (started : (session.start (.ofAgenda [])).2 = .ok bundle) :
    (session.start (.ofAgenda [])).1.Abreast none := by
  obtain ⟨host, hb, hspace, -, hwatcher⟩ := start_eq_ok started
  obtain ⟨_, _, _, hsync⟩ := Watcher.onTable_sync session.watcher bundle.modules
  refine .of_course ?_ ?_ (.start rooted refresh single new apart started)
  · have htree := Host.isTree_build tree session.config
    rw [hb] at htree
    rwa [hspace]
  · rw [hwatcher, hsync, new]
    rfl

/-- After each event, the session is abreast of all changes, or a rebuild has failed. -/
theorem Attended.abreast (h : Attended session) : session.Failed ∨ session.Abreast none := by
  induction h with
  | start tree rooted refresh single new apart started =>
    exact .inr (.start tree rooted refresh single new apart started)
  | @change session _ change fits single free made apart ih =>
    rcases ih with hfailed | habreast
    · exact .inl (hfailed.attend change)
    · obtain ⟨_, hcourse, -⟩ := habreast.course
      refine (habreast.editAll fits single free made).dispatch (fun path hchanged => ?_) apart
      exact (canonical_of_changed? hcourse.kept.rooted hchanged).absolute_eq

/-- After each event a rebuild has failed, or the session is fresh exactly if all of the watched
files are there. So only a removal that is not reported leaves it stale. -/
theorem Attended.fresh_iff_present (h : Attended session) : session.Failed ∨
    (session.Fresh ↔ ∀ path ∈ session.watcher.watched,
      ∃ content, session.host.workspace.content? path = some content) := by
  refine h.abreast.imp_right fun habreast => ⟨?_, fun present => ?_⟩
  · rintro ⟨bundle, hdate, hwatched⟩ path hp
    exact Workspace.exists_content_of_mem_modules hdate.bundle_eq ((hwatched path).1 hp)
  · obtain ⟨edited, hcourse, hmissing⟩ := habreast.course
    obtain ⟨bundle, hdate, -, hwatched⟩ := hcourse.kept.current fun path hp he => by
      obtain ⟨content, hcontent⟩ := present path hp
      cases ((hmissing path hp he).resolve_right nofun).symm.trans hcontent
    exact ⟨bundle, hdate, hwatched⟩

theorem attended_ofPairStarted : Attended ofPairStarted := by
  obtain ⟨htree, hsingle, hapart, hstarted⟩ : ofPair.host.workspace.files.IsTree ∧
      ofPair.output.root ≠ "//" ∧ ofPair.KeepsApart ∧ (ofPair.start (.ofAgenda [])).2 =
        .ok ⟨"/w/a.js", "var b = 1;", ["/w/b.js", "/w/a.js"]⟩ := by decide +kernel
  exact .start htree rfl rfl hsingle rfl hapart hstarted

/-- When `b` gets another text, the session of the pair is told of it, and is fresh again. -/
theorem fresh_iff_present_pair :
    Attended (ofPairStarted.attend (.overwrite "b.js" "var b = 2;".toUTF8)) ∧
      (ofPairStarted.attend (.overwrite "b.js" "var b = 2;".toUTF8)).Fresh := by
  obtain ⟨hsingle, hfree, hmade, hapart⟩ :
      (ofPairStarted.host.workspace.absolute "b.js").root ≠ "//" ∧
      ofPairStarted.host.workspace.absolute "b.js" ≠ ofPairStarted.output ∧
      (ofPairStarted.editAll [.write "b.js" "var b = 2;".toUTF8]).2 = .ok () ∧
      (ofPairStarted.editAll [.write "b.js" "var b = 2;".toUTF8]).1.KeepsApart := by decide +kernel
  have hattended := attended_ofPairStarted.change (.overwrite "b.js" "var b = 2;".toUTF8)
    ⟨"var b = 1;".toUTF8, by decide +kernel⟩ (List.forall_mem_singleton.2 hsingle)
    (List.forall_mem_singleton.2 hfree) hmade hapart
  generalize hafter : ofPairStarted.attend (.overwrite "b.js" "var b = 2;".toUTF8) = after at *
  obtain ⟨hgood, hpresent⟩ : after.watcher.failure = none ∧
      ∀ subscription ∈ after.watcher.subscriptions,
        (after.host.workspace.content? subscription.path).isSome = true := by
    rw [← hafter]
    decide +kernel
  rcases hattended.fresh_iff_present with hfailed | hfresh
  · exact Bool.noConfusion ((congrArg Option.isSome hgood).symm.trans hfailed.1)
  · refine ⟨hattended, hfresh.2 fun path hp => ?_⟩
    obtain ⟨subscription, hs, -, rfl⟩ := Watcher.mem_watched.1 hp
    exact Option.isSome_iff_exists.1 (hpresent subscription hs)

/-- When `b` is removed, no rebuild begins, and so none fails, although there is no bundle any more:
the event is dropped. -/
theorem removal_dropped : Attended (ofPairStarted.attend (.delete "b.js")) ∧
    (ofPairStarted.attend (.delete "b.js")).watcher.failure = none ∧
    ¬ (ofPairStarted.attend (.delete "b.js")).Fresh := by
  obtain ⟨hsingle, hfree, hapart⟩ :
      (ofPairStarted.host.workspace.absolute "b.js").root ≠ "//" ∧
      ofPairStarted.host.workspace.absolute "b.js" ≠ ofPairStarted.output ∧
      (ofPairStarted.editAll [.delete "b.js"]).1.KeepsApart := by decide +kernel
  have hattended := attended_ofPairStarted.change (.delete "b.js")
    ⟨"var b = 1;".toUTF8, by decide +kernel⟩ (List.forall_mem_singleton.2 hsingle)
    (List.forall_mem_singleton.2 hfree) rfl hapart
  generalize hafter : ofPairStarted.attend (.delete "b.js") = after at *
  obtain ⟨hgood, hnone⟩ : after.watcher.failure = none ∧
      after.host.workspace.bundle after.config.extension after.config.entry =
        .error (.moduleNotFound "/w/b.js" (some "/w/a.js")) := by
    rw [← hafter]
    decide +kernel
  refine ⟨hattended, hgood, ?_⟩
  rintro ⟨bundle, hdate, -⟩
  cases hnone.symm.trans hdate.bundle_eq

end Session

end Bundler
