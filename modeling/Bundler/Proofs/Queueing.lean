import Bundler.Proofs.Rebuild

/-!
# Changes while a build runs

A file may change while a build runs, perhaps after the build has read it. If the session is then
told of it, and the file has a subscription, another build follows, which finds the file as it is
(`Session.rebuild_told`). Subscriptions follow a build, so a session does not heed changes of a
module that the running build is the first to read: such a change is lost
(`Session.discovered_change_lost`).
-/

namespace Bundler

namespace Session

variable {session after : Session} {agenda : Agenda} {steps : List Step} {change : Edit}
  {path : Path}

/-- Amid the steps there is a change to the files, and right after it the session is told of a path
that it heeds. -/
def Told (steps : List Step) (session : Session) (change : Edit) (path : Path) : Prop :=
  ∃ earlier later, steps = earlier ++ .edit change :: .notify path :: later ∧
    ((runAside (.ofAgenda []) earlier session).edit change).1.heeds path = true

/-- The same amid a build with the company of the agenda: before the build reads its sources, or
after it has written its output. -/
def ToldAmid (agenda : Agenda) (session : Session) (change : Edit) (path : Path) : Prop :=
  let company := agenda.company (session.builds + 1)
  Told company.before { session with builds := session.builds + 1 } change path ∨
    Told company.after (session.buildAmid (.ofAgenda []) company.before []).1 change path

/-- What steps ask for, they do one after another. -/
theorem asideTriggers_append (earlier later : List Step) (session : Session) :
    asideTriggers (earlier ++ later) session =
      asideTriggers earlier session + asideTriggers later (runAside (.ofAgenda []) earlier session) := by
  induction earlier generalizing session with
  | nil => simp [asideTriggers, runAside]
  | cons step rest ih =>
    rw [List.cons_append, asideTriggers, asideTriggers, runAside]
    cases step.run (.ofAgenda []) session with
    | mk after outcome =>
      dsimp only
      rw [ih, Nat.add_assoc]

/-- A session that is told of a path that it heeds is asked for a rebuild. -/
theorem Told.asked (h : Told steps session change path) : 0 < asideTriggers steps session := by
  obtain ⟨earlier, later, rfl, hheeds⟩ := h
  have hnotify : asideTriggers (.edit change :: .notify path :: later)
      (runAside (.ofAgenda []) earlier session) =
      0 + ((if ((runAside (.ofAgenda []) earlier session).edit change).1.heeds path then 1 else 0) +
        _) := rfl
  rw [asideTriggers_append, hnotify, hheeds]
  simp only [if_true]
  omega

/-- So is one that is told amid a build that succeeds. -/
theorem ToldAmid.asked {bundle : Bundle} (h : ToldAmid agenda session change path)
    (free : agenda.startFree = true) (hr : session.watcher.rebuilding = true)
    (hb : (Engine.ofAgenda agenda).build session = (after, .ok bundle)) :
    0 < session.arrivals agenda := by
  rw [build_ofAgenda free hr] at hb
  unfold ToldAmid at h
  unfold arrivals triggersAmid
  rcases h with h | h
  · have hasked := h.asked
    dsimp only at hasked ⊢
    omega
  · have hasked := h.asked
    unfold buildAmid at hb hasked
    dsimp only at hb hasked ⊢
    generalize runAside (.ofAgenda []) (agenda.company (session.builds + 1)).before
      { session with builds := session.builds + 1 } = amid at hb hasked ⊢
    cases hbuilt : amid.host.build amid.config with
    | mk host built =>
      rw [hbuilt] at hb hasked
      cases built with
      | error error => cases hb
      | ok found =>
        dsimp only [runAside] at hasked ⊢
        omega

variable {rounds : List Round} {final : Session}

/-- The next build finds the files as the last one and its company left them. -/
theorem Serial.workspace_next (h : Serial agenda session rounds final) {i : Nat}
    (hi : i < rounds.length) (hnext : i + 1 < rounds.length) :
    rounds[i + 1].before.host.workspace = rounds[i].after.host.workspace := by
  obtain ⟨bundle, -, hbefore⟩ := h.next i hnext
  rw [hbefore]
  exact workspace_succeed

/-- A change that the session is told of while a build runs, and heeds, is not lost: if the build
succeeds, another one follows, and finds the files as they are then. -/
theorem rebuild_told (free : agenda.startFree = true) (h : session.watcher.Reachable) :
    ∃ rounds, Serial agenda session rounds (session.rebuild (.ofAgenda agenda)) ∧
      ∀ i (hi : i < rounds.length) bundle change path, rounds[i].result = .ok bundle →
        ToldAmid agenda rounds[i].before change path → ∃ hi : i + 1 < rounds.length,
          rounds[i + 1].before.host.workspace = rounds[i].after.host.workspace := by
  obtain ⟨hidle, hempty⟩ := h.idle
  obtain ⟨rounds, hrounds⟩ := exists_rounds_of_idle free hidle hempty
  have hserial := hrounds.serial free hempty
  refine ⟨rounds, hserial, fun i hi bundle change path hok htold => ?_⟩
  obtain ⟨hbuild, hr⟩ := hrounds.build_eq free rfl rounds[i] (List.getElem_mem hi)
  have hasked := htold.asked free hr (hok ▸ hbuild)
  have hnext := (hserial.goesOn i hi).2 ⟨⟨bundle, hok⟩, hasked⟩
  exact ⟨hnext, hserial.workspace_next hi hnext⟩

/-- The build that follows two changes to a module finds the last one. -/
theorem rebuild_told_twoChanges : ∃ rounds,
    Serial twoChanges ofPairStarted rounds (ofPairStarted.rebuild (.ofAgenda twoChanges)) ∧
      ∃ hi : 1 < rounds.length,
        rounds[1].before.host.workspace.content? "b.js" = some "var b = 3;".toUTF8 := by
  obtain ⟨rounds, hserial, htold⟩ := rebuild_told startFree_twoChanges reachable_ofPairStarted
  obtain ⟨round, rest, rfl, hbefore⟩ := hserial.first
  have hbuild := hserial.build round List.mem_cons_self
  rw [hbefore] at hbuild
  -- What the first build is like is computed from the session that it begins with.
  generalize hbegun : { ofPairStarted with watcher := ofPairStarted.watcher.begin } = begun
    at hbefore hbuild
  obtain ⟨hbuilds, hok, hheeds, hcontent⟩ : begun.builds = 1 ∧
      ((Engine.ofAgenda twoChanges).build begun).2 =
        .ok ⟨"/w/a.js", "var b = 2;", ["/w/b.js", "/w/a.js"]⟩ ∧
      ((begun.buildAmid (.ofAgenda []) (Agenda.company 2 twoChanges).before []).1.edit
        (.write "b.js" "var b = 3;".toUTF8)).1.heeds "b.js" = true ∧
      ((Engine.ofAgenda twoChanges).build begun).1.host.workspace.content? "b.js" =
        some "var b = 3;".toUTF8 := by
    rw [← hbegun]
    decide +kernel
  rw [hbuild] at hok hcontent
  have hamid : ToldAmid twoChanges round.before (.write "b.js" "var b = 3;".toUTF8) "b.js" := by
    unfold ToldAmid
    rw [hbefore, hbuilds]
    exact .inr ⟨[], [], rfl, hheeds⟩
  obtain ⟨hnext, hspace⟩ := htold 0 (by simp) _ _ _ hok hamid
  exact ⟨_, hserial, hnext, hspace ▸ hcontent⟩

/-- A session whose entry `a` imports nothing, beside a file `b`. -/
def ofLoner : Session where
  host := {
    workspace := .ofSources [("a.js", "var a;"), ("b.js", "var b = 1;")]
    now := ⟨2024, 3, 5, 7, 8, 9⟩ }
  config := { entry := "a.js", output := "dist/bundle.js" }

/-- While the second build runs, just after it has read its sources, `b` is changed and the session
is told so. -/
def lateChange : Agenda :=
  [{ number := 2, after := [.edit (.write "b.js" "var b = 2;".toUTF8), .notify "b.js"] }]

/-- The entry comes to import `b`, so that the second build is the first one to read it. -/
def ofLonerLater : Session :=
  let started := (ofLoner.start (.ofAgenda [])).1
  let changed := (started.edit (.write "a.js" "import b from './b';".toUTF8)).1
  (changed.notify (.ofAgenda lateChange) "a.js").1

/-- The change is lost: although no build failed and the session is not stopped, no build follows
the one that discovered `b`, whose text stays in the output. -/
theorem discovered_change_lost : ofLonerLater.builds = 2 ∧
    ofLonerLater.watcher.failure = none ∧ ofLonerLater.watcher.stopped = false ∧
    ofLonerLater.watcher.serves "/w/b.js" = true ∧
    ofLonerLater.host.workspace.content? "dist/bundle.js" = some "var b = 1;".toUTF8 ∧
    ofLonerLater.host.workspace.bundle ".js" "a.js" =
      .ok ⟨"/w/a.js", "var b = 2;", ["/w/b.js", "/w/a.js"]⟩ := by
  decide +kernel

end Session

end Bundler
