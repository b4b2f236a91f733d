import Bundler.Proofs.History
import Bundler.Proofs.Queueing

/-!
# The subscriptions follow the last bundle

As long as no step is about subscriptions, a session that has started subscribes to the modules of
the bundle that it last built, or, if it does not refresh the watched files, to those of its first
one (`Session.Follows`). A build that succeeds brings this about (`Follows.succeed`). One that fails
leaves the table as it is, and so does everything that accompanies builds (`Follows.of_does`).
`Session.subscriptions_follow` says so of all runs.
-/

namespace Bundler

namespace Session

variable {session after started final : Session} {agenda : Agenda} {first bundle : Bundle}
  {last : Session × Bundle} {rounds : List Round}

/-- The last bundle, and the session that has just taken note of it, after one more build. -/
def Round.renew (last : Session × Bundle) (round : Round) : Session × Bundle :=
  match round.result with
  | .ok bundle => (round.after.succeed bundle, bundle)
  | .error _ => last

/-- A run between two rebuilds: steps of the allowed kinds one after another, with the builds that
they lead to. The steps that happen while a step waits are a run as well, because a wait begins with
the session as it is. -/
inductive Run (may : Watcher.Operation → Bool) (agenda : Agenda) :
    Session → List Round → Session → Prop where
  | refl (session : Session) : Run may agenda session [] session
  | step {session after : Session} {rounds : List Round} (run : Run may agenda session rounds after)
      (step : Step) (within : step.within may = true) :
      Run may agenda session (rounds ++ step.rounds agenda after)
        (step.run (.ofAgenda agenda) after).1

/-- The subscriptions are those of the last bundle, or of the first one if the session does not
refresh the watched files. -/
structure Follows (first : Bundle) (last : Session × Bundle) (session : Session) : Prop where
  mem_paths : ∀ path, path ∈ session.watcher.paths ↔
    path ∈ (if session.config.refreshWatches then last.2 else first).modules
  /-- All of them are served. -/
  active : session.watcher.AllActive
  /-- The table is the one that the last build left that succeeded. -/
  subscriptions_eq : session.watcher.subscriptions = last.1.watcher.subscriptions

/-- Nothing but the settings and the table matters. -/
theorem Follows.of_eq (h : Follows first last session)
    (hsubscriptions : after.watcher.subscriptions = session.watcher.subscriptions)
    (hconfig : after.config = session.config) : Follows first last after where
  mem_paths := by
    rw [Watcher.paths, hsubscriptions, hconfig]
    exact h.mem_paths
  active := by
    rw [Watcher.AllActive, hsubscriptions]
    exact h.active
  subscriptions_eq := hsubscriptions.trans h.subscriptions_eq

/-- What is not about subscriptions leaves the table alone. -/
theorem Does.subscriptions_eq (h : session.Does Watcher.Operation.sparesTable after) :
    after.watcher.subscriptions = session.watcher.subscriptions := by
  refine h.goes.keeps (P := fun watcher => watcher.subscriptions = session.watcher.subscriptions)
    (fun {_ watcher _} hop hmay hp => ?_) rfl
  cases hop with
  | queue => exact hp
  | stop =>
    obtain ⟨_, _, hstop⟩ := watcher.exists_stop_eq
    rw [hstop]
    exact hp
  | _ => cases hmay

theorem Follows.of_does (h : Follows first last session)
    (hdoes : session.Does Watcher.Operation.sparesTable after) : Follows first last after :=
  h.of_eq hdoes.subscriptions_eq hdoes.config_eq

/-- If the watched files are not refreshed, a rebuild that succeeds is only counted. -/
theorem succeed_of_frozen (h : session.config.refreshWatches = false) :
    session.succeed bundle = { session with watcher := session.watcher.count } := by
  unfold succeed
  dsimp only
  rw [if_neg (Bool.eq_false_iff.1 h)]

/-- When a build has succeeded, its modules are subscribed, or the first ones stay so. -/
theorem Follows.succeed (h : Follows first last session) (bundle : Bundle) :
    Follows first (session.succeed bundle, bundle) (session.succeed bundle) := by
  cases hrefresh : session.config.refreshWatches with
  | true =>
    have hactive : session.watcher.count.AllActive := h.active
    refine ⟨fun path => ?_, ?_, rfl⟩
    · rw [config_succeed, hrefresh, watcher_succeed_of_refresh hrefresh]
      exact Watcher.mem_paths_sync
    · rw [watcher_succeed_of_refresh hrefresh]
      exact Watcher.allActive_sync hactive bundle.modules
  | false =>
    have hpaths := h.mem_paths
    rw [hrefresh] at hpaths
    rw [succeed_of_frozen hrefresh]
    exact ⟨by rw [hrefresh]; exact hpaths, h.active, rfl⟩

/-- Along the builds of a rebuild, the subscriptions follow. -/
theorem Rounds.follows (h : Rounds agenda session rounds final)
    (hspare : agenda.within Watcher.Operation.sparesTable = true)
    (hr : session.watcher.rebuilding = true) (hf : Follows first last session) :
    Follows first (rounds.foldl Round.renew last) final := by
  have hfree := Agenda.startFree_of_within rfl hspare
  induction h generalizing last with
  | failed build => exact (hf.of_does (does_of_build hspare rfl hr build)).of_eq rfl rfl
  | last build =>
    have hsucceeded := (hf.of_does (does_of_build hspare rfl hr build)).succeed
    exact (hsucceeded _).of_eq rfl rfl
  | again build _ _ ih =>
    have hsucceeded := (hf.of_does (does_of_build hspare rfl hr build)).succeed
    exact ih (amid_of_build_ok hfree hr build).rebuilding ((hsucceeded _).of_eq rfl rfl)

end Session

open Watcher (Operation)

variable {agenda : Agenda} {first : Bundle}

/-- Between two rebuilds, the subscriptions follow the builds that a single step leads to. -/
theorem Step.follows_single {step : Step} {session : Session} {last : Session × Bundle}
    (hspare : agenda.within Operation.sparesTable = true) (single : step.isSingle = true)
    (hstep : step.within Operation.sparesTable = true) (idle : session.Idle)
    (hf : session.Follows first last) :
    Session.Follows first ((step.rounds agenda session).foldl Session.Round.renew last)
      (step.run (.ofAgenda agenda) session).1 := by
  have hfree := Agenda.startFree_of_within rfl hspare
  rcases step.single_cases single hstep hfree idle with ⟨host, hrounds⟩ | ⟨hnone, hdoes, -⟩
  · have hbegun : Session.Follows first last
        { session with host, watcher := session.watcher.begin } := hf.of_eq rfl rfl
    exact hrounds.follows hspare rfl hbegun
  · rw [hnone]
    exact hf.of_does hdoes

mutual

/-- Between two rebuilds, the subscriptions follow the builds that a step leads to. -/
theorem Step.follows (hspare : agenda.within Operation.sparesTable = true) :
    ∀ (step : Step) {session : Session} {last : Session × Bundle},
      step.within Operation.sparesTable = true → session.Idle → session.Follows first last →
      Session.Follows first ((step.rounds agenda session).foldl Session.Round.renew last)
        (step.run (.ofAgenda agenda) session).1
  | .wait script, _, _, hstep, idle, hf => by
    have hscript := (Bool.and_eq_true_iff.1 hstep).1
    rw [Step.run, Step.rounds]
    exact (followsScript hspare script hscript idle hf).of_does (Session.does_stop rfl _)
  | .start, _, _, hstep, _, _ => nomatch hstep
  | .edit _, _, _, hstep, idle, hf | .rebuild, _, _, hstep, idle, hf
  | .stop, _, _, hstep, idle, hf | .notify _, _, _, hstep, idle, hf
  | .sync _, _, _, hstep, idle, hf | .event _, _, _, hstep, idle, hf
  | .cancel _, _, _, hstep, idle, hf => Step.follows_single hspare rfl hstep idle hf

/-- So they do along a script. -/
theorem followsScript (hspare : agenda.within Operation.sparesTable = true) :
    ∀ (script : List Step) {session : Session} {last : Session × Bundle},
      scriptWithin Operation.sparesTable script = true → session.Idle → session.Follows first last →
      Session.Follows first ((scriptRounds agenda script session).foldl Session.Round.renew last)
        (runScript (.ofAgenda agenda) script session).1
  | [], _, _, _, _, hf => hf
  | step :: rest, session, _, h, idle, hf => by
    obtain ⟨hstep, hrest⟩ := Bool.and_eq_true_iff.1 h
    have hkeeps := step.keeps_run (Engine.steady_ofAgenda agenda) session
    have hfollows := step.follows hspare hstep idle hf
    rw [runScript, scriptRounds]
    split
    · exact hf
    · rw [List.foldl_append]
      exact followsScript hspare rest hrest (idle.of_keeps hkeeps) hfollows

end

namespace Session

variable {session started final : Session} {bundle : Bundle} {rounds : List Round}

/-- The subscriptions follow along a run. -/
theorem Run.follows (h : Run Operation.sparesTable agenda started rounds final)
    (hspare : agenda.within Operation.sparesTable = true) (idle : started.Idle)
    (hf : Follows first (started, bundle) started) :
    final.Idle ∧ Follows first (rounds.foldl Round.renew (started, bundle)) final := by
  induction h with
  | refl => exact ⟨idle, hf⟩
  | @step after _ _ step within ih =>
    obtain ⟨hidle, hfollows⟩ := ih
    have hkeeps := step.keeps_run (Engine.steady_ofAgenda agenda) after
    rw [List.foldl_append]
    exact ⟨hidle.of_keeps hkeeps, step.follows hspare within hidle hfollows⟩

/-- If the first build of a session fails, nothing is subscribed and the observer is asked for
nothing. If it succeeds, the subscriptions follow the last bundle that was built, whatever happens
to the session between two rebuilds and amid them, as long as that is not about subscriptions. -/
theorem subscriptions_follow (new : session.watcher = {})
    (quiet : ∀ company ∈ agenda, company.number ≠ session.builds + 1)
    (spare : agenda.within Operation.sparesTable = true) :
    (∀ failed error, session.start (.ofAgenda agenda) = (failed, .error error) →
      failed.watcher.subscriptions = [] ∧ failed.watcher.calls = []) ∧
    ∀ started bundle, session.start (.ofAgenda agenda) = (started, .ok bundle) →
      ∀ rounds final, Run Operation.sparesTable agenda started rounds final →
        Follows bundle (rounds.foldl Round.renew (started, bundle)) final := by
  rcases start_cases new quiet with
    ⟨_, _, _, -, hstart, hwatcher⟩ | ⟨_, found, begun, -, hstart, hwatcher⟩ <;> rw [hstart]
  · refine ⟨fun failed error h => ?_, fun _ _ h => nomatch h⟩
    cases h
    rw [hwatcher]
    exact ⟨rfl, rfl⟩
  · refine ⟨fun _ _ h => (nomatch h), fun started bundle h rounds final hrun => ?_⟩
    cases h
    have hnew : ({} : Watcher).AllActive := fun _ h => absurd h List.not_mem_nil
    have hbegun : Follows found (begun, found) begun := by
      refine ⟨fun path => ?_, ?_, rfl⟩
      · rw [hwatcher, ite_self]
        exact Watcher.mem_paths_sync
      · rw [hwatcher]
        exact Watcher.allActive_sync hnew found.modules
    exact (hrun.follows spare (.of_start hwatcher) hbegun).2

/-- While the second build runs, just after it has read its sources, the entry comes to import a
file that is missing, and the session is told so. -/
def breakingChange : Agenda :=
  [{ number := 2
     after := [.edit (.write "a.js" "import c from './c';".toUTF8), .notify "a.js"] }]

/-- The entry of the loner comes to import `b`, so that a rebuild is asked for, and it breaks while
that runs. -/
def ofLonerBroken : Session :=
  let started := (ofLoner.start (.ofAgenda breakingChange)).1
  let changed := ((Step.edit (.write "a.js" "import b from './b';".toUTF8)).run
    (.ofAgenda breakingChange) started).1
  ((Step.notify "a.js").run (.ofAgenda breakingChange) changed).1

/-- After the rebuild, whose first build succeeds and whose second one fails, the subscriptions are
those of the bundle that its first build found. -/
theorem subscriptions_follow_broken : ofLonerBroken.watcher.failure.isSome = true ∧
    ∃ last : Session × Bundle, last.2.modules = ["/w/b.js", "/w/a.js"] ∧
      Follows ⟨"/w/a.js", "var a;", ["/w/a.js"]⟩ last ofLonerBroken := by
  have hquiet : ∀ company ∈ breakingChange, company.number ≠ ofLoner.builds + 1 := by decide
  have hstart : ofLoner.start (.ofAgenda breakingChange) =
      ((ofLoner.start (.ofAgenda breakingChange)).1, .ok ⟨"/w/a.js", "var a;", ["/w/a.js"]⟩) :=
    Prod.ext rfl (by decide +kernel)
  have hbegun (session : Session) : Run Operation.sparesTable breakingChange session [] session :=
    .refl session
  have hrun := ((hbegun (ofLoner.start (.ofAgenda breakingChange)).1).step
    (.edit (.write "a.js" "import b from './b';".toUTF8)) rfl).step (.notify "a.js") rfl
  have hfollow := (subscriptions_follow rfl hquiet (by decide)).2 _ _ hstart _ ofLonerBroken hrun
  exact ⟨by decide +kernel, _, by decide +kernel, hfollow⟩

end Session

end Bundler
