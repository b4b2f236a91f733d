import Bundler.Proofs.Idle

/-!
# Steps amid a rebuild

While a rebuild is running, a step that asks for another one only queues it, and no build begins
unless the session is started once more. So what steps do then does not depend on the engine
(`Step.run_amid`), and all that the rebuild has to know afterwards is whether it was asked for
(`Session.Amid`): how often, `Step.triggers` counts.
-/

namespace Bundler

mutual

/-- The step does not start the session, and neither does its script. -/
def Step.startFree : Step → Bool
  | .start => false
  | .wait script => startFreeScript script
  | _ => true

/-- No step of the script starts the session. -/
def startFreeScript : List Step → Bool
  | [] => true
  | step :: rest => step.startFree && startFreeScript rest

end

/-- Changes of the path lead to a rebuild: it has a subscription that is served, and the session is
not stopped. -/
def Session.heeds (session : Session) (path : Path) : Bool :=
  session.watcher.serves (session.host.workspace.absolute path) && !session.watcher.stopped

mutual

/-- How often the step asks for a rebuild, itself or in its script. Amid a rebuild the engine that
the script runs with does not matter. -/
def Step.triggers : Step → Session → Nat
  | .rebuild, _ => 1
  | .notify path, session => if session.heeds path then 1 else 0
  | .event event, session =>
    match if event.isPossible then event.changed? else none with
    | some path => if session.heeds path then 1 else 0
    | none => 0
  | .wait script, session => scriptTriggers script session
  | _, _ => 0

/-- How often the steps of a script ask for a rebuild, up to one after which the session is
stopped. -/
def scriptTriggers : List Step → Session → Nat
  | [], _ => 0
  | step :: rest, session =>
    if session.watcher.stopped then 0
    else step.triggers session + scriptTriggers rest (step.run (.ofAgenda []) session).1

end

namespace Session

variable {session after third : Session} {m n : Nat}

/-- What steps do to a session amid a rebuild: no build begins, the rebuild keeps running, and
another one is queued if the steps asked for it at least once. -/
structure Amid (session after : Session) (triggers : Nat) : Prop where
  builds_eq : after.builds = session.builds
  count_eq : after.watcher.rebuildCount = session.watcher.rebuildCount
  rebuilding : after.watcher.rebuilding = true
  pending_eq : after.watcher.pending = (session.watcher.pending || decide (0 < triggers))

theorem Amid.refl (h : session.watcher.rebuilding = true) : session.Amid session 0 :=
  ⟨rfl, rfl, h, (Bool.or_false _).symm⟩

/-- Nothing but the watcher and the number of the builds is concerned. -/
theorem Amid.of_eq (h : session.Amid after n) (hb : third.builds = after.builds)
    (hw : third.watcher = after.watcher) : session.Amid third n where
  builds_eq := hb.trans h.builds_eq
  count_eq := hw ▸ h.count_eq
  rebuilding := hw ▸ h.rebuilding
  pending_eq := hw ▸ h.pending_eq

theorem Amid.trans (h : session.Amid after m) (h' : after.Amid third n) :
    session.Amid third (m + n) where
  builds_eq := h'.builds_eq.trans h.builds_eq
  count_eq := h'.count_eq.trans h.count_eq
  rebuilding := h'.rebuilding
  pending_eq := by
    have hor : decide (0 < m + n) = (decide (0 < m) || decide (0 < n)) := by
      rw [← Bool.decide_or, decide_eq_decide]
      omega
    rw [h'.pending_eq, h.pending_eq, hor, Bool.or_assoc]

/-- The end of a session leaves a rebuild that is running to its end. -/
theorem stop_amid (h : session.watcher.rebuilding = true) : session.Amid session.stop 0 := by
  rw [stop, Watcher.stop]
  dsimp only
  split <;> exact ⟨rfl, rfl, h, (Bool.or_false _).symm⟩

/-- So does the cancellation of a subscription. -/
theorem cancel_amid (path : Path) (h : session.watcher.rebuilding = true) :
    session.Amid (session.cancel path).1 0 := by
  rw [cancel]
  split <;> exact ⟨rfl, rfl, h, (Bool.or_false _).symm⟩

/-- A rebuild amid another is queued. -/
theorem rebuild_amid (engine : Engine) (session : Session) (h : session.watcher.rebuilding = true) :
    session.rebuild engine = session.rebuild (.ofAgenda []) ∧
      session.Amid (session.rebuild engine) 1 := by
  simp only [rebuild, h, if_true, true_and]
  exact ⟨rfl, rfl, h, (Bool.or_true _).symm⟩

/-- A notification amid a rebuild queues another one if the session heeds the path. -/
theorem notify_amid (engine : Engine) (path : Path) (session : Session)
    (h : session.watcher.rebuilding = true) :
    session.notify engine path = session.notify (.ofAgenda []) path ∧
      session.Amid (session.notify engine path).1 (if session.heeds path then 1 else 0) := by
  unfold notify heeds
  dsimp only
  split
  · obtain ⟨hsame, hamid⟩ := rebuild_amid engine { session with host := session.host.info _ } h
    have htold : ∀ host, session.Amid { session with host } 0 := fun _ =>
      (Amid.refl h).of_eq rfl rfl
    exact ⟨Prod.ext hsame rfl, (htold _).trans hamid⟩
  · exact ⟨rfl, .refl h⟩

/-- So does an event that is about a path with a new content. -/
theorem dispatch_amid (engine : Engine) (event : FileEvent) (session : Session)
    (h : session.watcher.rebuilding = true) :
    session.dispatch engine event = session.dispatch (.ofAgenda []) event ∧
      session.Amid (session.dispatch engine event).1 ((Step.event event).triggers session) := by
  unfold dispatch
  rw [Step.triggers]
  split
  · cases hchanged : event.changed? with
    | some path =>
      obtain ⟨hsame, hamid⟩ := notify_amid engine path session h
      refine ⟨?_, hamid⟩
      dsimp only
      rw [hsame]
    | none => exact ⟨rfl, .refl h⟩
  · exact ⟨rfl, .refl h⟩

end Session

mutual

/-- Amid a rebuild no build begins but by a start, so the engine does not matter. -/
theorem Step.run_amid (engine : Engine) : ∀ (step : Step) (session : Session),
    step.startFree = true → session.watcher.rebuilding = true →
    step.run engine session = step.run (.ofAgenda []) session ∧
      session.Amid (step.run engine session).1 (step.triggers session)
  | .edit _, _, _, h => ⟨rfl, (Session.Amid.refl h).of_eq rfl rfl⟩
  | .start, _, hfree, _ => nomatch hfree
  | .rebuild, session, _, h => by
    obtain ⟨hsame, hamid⟩ := session.rebuild_amid engine h
    exact ⟨Prod.ext hsame rfl, hamid⟩
  | .stop, _, _, h => ⟨rfl, Session.stop_amid h⟩
  | .notify path, session, _, h => by
    obtain ⟨hsame, hamid⟩ := session.notify_amid engine path h
    refine ⟨?_, hamid⟩
    rw [Step.run, hsame, Step.run]
  | .sync paths, session, _, h => by
    obtain ⟨_, _, _, hsync⟩ := Watcher.onTable_sync session.watcher paths
    refine ⟨rfl, rfl, ?_, ?_, ?_⟩ <;> rw [Step.run, Session.watcher_sync, hsync]
    · exact h
    · exact (Bool.or_false _).symm
  | .event event, session, _, h => by
    obtain ⟨hsame, hamid⟩ := session.dispatch_amid engine event h
    refine ⟨?_, hamid⟩
    rw [Step.run, hsame, Step.run]
  | .cancel path, _, _, h => ⟨rfl, Session.cancel_amid path h⟩
  | .wait script, session, hfree, h => by
    obtain ⟨hsame, hamid⟩ := runScript_amid engine script session hfree h
    refine ⟨?_, hamid.trans (Session.stop_amid hamid.rebuilding)⟩
    rw [Step.run, hsame, Step.run]

/-- So the steps of a script do as they would with any other engine. -/
theorem runScript_amid (engine : Engine) : ∀ (script : List Step) (session : Session),
    startFreeScript script = true → session.watcher.rebuilding = true →
    runScript engine script session = runScript (.ofAgenda []) script session ∧
      session.Amid (runScript engine script session).1 (scriptTriggers script session)
  | [], _, _, h => ⟨rfl, .refl h⟩
  | step :: rest, session, hfree, h => by
    obtain ⟨hstep, hrest⟩ := Bool.and_eq_true_iff.1 hfree
    obtain ⟨hsame, hamid⟩ := step.run_amid engine session hstep h
    rw [hsame] at hamid
    obtain ⟨hsame', hamid'⟩ := runScript_amid engine rest _ hrest hamid.rebuilding
    rw [runScript, runScript, scriptTriggers, hsame]
    split
    · exact ⟨rfl, .refl h⟩
    · dsimp only
      rw [hsame'] at hamid' ⊢
      exact ⟨rfl, hamid.trans hamid'⟩

end

namespace Session

/-- How often the steps that accompany a build ask for a rebuild. -/
def asideTriggers : List Step → Session → Nat
  | [], _ => 0
  | step :: rest, session =>
    let (after, outcome) := step.run (.ofAgenda []) session
    step.triggers session + asideTriggers rest { after with aside := after.aside ++ [outcome] }

/-- The steps that accompany a build are steps amid the rebuild. -/
theorem runAside_amid (engine : Engine) (steps : List Step) (session : Session)
    (hfree : startFreeScript steps = true) (h : session.watcher.rebuilding = true) :
    runAside engine steps session = runAside (.ofAgenda []) steps session ∧
      session.Amid (runAside engine steps session) (asideTriggers steps session) := by
  induction steps generalizing session with
  | nil => exact ⟨rfl, .refl h⟩
  | cons step rest ih =>
    obtain ⟨hstep, hrest⟩ := Bool.and_eq_true_iff.1 hfree
    obtain ⟨hsame, hamid⟩ := step.run_amid engine session hstep h
    rw [runAside, runAside, asideTriggers, hsame]
    rw [hsame] at hamid
    cases hrun : step.run (.ofAgenda []) session with
    | mk after outcome =>
      rw [hrun] at hamid
      obtain ⟨hsame', hamid'⟩ := ih { after with aside := after.aside ++ [outcome] } hrest
        hamid.rebuilding
      have hkept : session.Amid { after with aside := after.aside ++ [outcome] }
          (step.triggers session) := hamid.of_eq rfl rfl
      exact ⟨hsame', hkept.trans hamid'⟩

/-- How often a rebuild is asked for during a build with company. -/
def triggersAmid (before after : List Step) (session : Session) : Nat :=
  let begun := { session with builds := session.builds + 1 }
  let amid := runAside (.ofAgenda []) before begun
  asideTriggers before begun +
    match amid.host.build amid.config with
    | (_, .error _) => 0
    | (host, .ok _) => asideTriggers after { amid with host }

/-- During a build amid a rebuild no other build begins. -/
theorem buildAmid_amid (engine : Engine) {before after : List Step} (session : Session)
    (hb : startFreeScript before = true) (ha : startFreeScript after = true)
    (h : session.watcher.rebuilding = true) :
    session.buildAmid engine before after = session.buildAmid (.ofAgenda []) before after ∧
      ({ session with builds := session.builds + 1 }).Amid
        (session.buildAmid engine before after).1 (triggersAmid before after session) := by
  obtain ⟨hsame, hamid⟩ := runAside_amid engine before
    { session with builds := session.builds + 1 } hb h
  rw [hsame] at hamid
  unfold buildAmid triggersAmid
  dsimp only
  rw [hsame]
  generalize runAside (.ofAgenda []) before { session with builds := session.builds + 1 } = amid
    at hamid ⊢
  cases hbuild : amid.host.build amid.config with
  | mk host built =>
    have hkept : ({ session with builds := session.builds + 1 }).Amid { amid with host }
        (asideTriggers before { session with builds := session.builds + 1 }) :=
      hamid.of_eq rfl rfl
    cases built with
    | error error => exact ⟨rfl, hkept⟩
    | ok bundle =>
      obtain ⟨hsame', hamid'⟩ := runAside_amid engine after { amid with host } ha hkept.rebuilding
      exact ⟨Prod.ext hsame' rfl, hkept.trans hamid'⟩

/-- A build during which nothing happens is one without company. -/
theorem build_eq_buildAmid (engine : Engine) (session : Session) :
    session.build = session.buildAmid engine [] [] := by
  unfold build buildAmid
  dsimp only [runAside]
  cases hbuild : session.host.build session.config with
  | mk host built => cases built <;> rfl

end Session

end Bundler
