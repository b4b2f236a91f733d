import Bundler.Proofs.Amid
import Mathlib.Logic.Relation

/-!
# What a session does to its watcher

Whatever a session goes through, its watcher goes through operations of ten kinds
(`Watcher.Operates`), and its settings stay (`Session.Does`). So what every operation keeps is kept
all along (`Watcher.Goes.keeps`). Steps are restricted by the kinds of operations that they may do
themselves (`Step.within`): with an engine that keeps to the same kinds, these are all that they
lead to (`Step.does_run`), and so it is for a build with company (`Session.does_buildAmid`). Amid a
rebuild this is so with any engine (`Session.does_buildAmid_amid`), because no build begins then.
-/

namespace Bundler

namespace Watcher

/-- The kinds of what a session does to its watcher. -/
inductive Operation where
  | sync
  | cancel
  | start
  | stop
  | begin
  | queue
  | dequeue
  | settle
  | fail
  | count
deriving DecidableEq

/-- An operation of the kind leads from one watcher to the other. -/
inductive Operates : Operation → Watcher → Watcher → Prop where
  | sync (watcher : Watcher) (paths : List Path) : Operates .sync watcher (watcher.sync paths)
  | cancel (watcher : Watcher) (path : Path) : Operates .cancel watcher (watcher.cancel path)
  | start (watcher : Watcher) : Operates .start watcher watcher.start
  | stop (watcher : Watcher) : Operates .stop watcher watcher.stop
  | begin (watcher : Watcher) : Operates .begin watcher watcher.begin
  | queue (watcher : Watcher) : Operates .queue watcher watcher.queue
  | dequeue (watcher : Watcher) : Operates .dequeue watcher watcher.dequeue
  | settle (watcher : Watcher) : Operates .settle watcher watcher.settle
  | fail (watcher : Watcher) (error : Error) : Operates .fail watcher (watcher.fail error)
  | count (watcher : Watcher) : Operates .count watcher watcher.count

/-- Operations of the allowed kinds lead from one watcher to the other. -/
def Goes (may : Operation → Bool) : Watcher → Watcher → Prop :=
  Relation.ReflTransGen fun watcher after =>
    ∃ operation, may operation = true ∧ Operates operation watcher after

variable {watcher after : Watcher} {may : Operation → Bool}

/-- What the operations keep one by one, they keep together. -/
theorem Goes.keeps {P : Watcher → Prop} (h : watcher.Goes may after)
    (keep : ∀ {operation watcher after}, Operates operation watcher after → may operation = true →
      P watcher → P after) (holds : P watcher) : P after := by
  induction h with
  | refl => exact holds
  | tail _ step ih =>
    obtain ⟨_, hmay, hop⟩ := step
    exact keep hop hmay ih

/-- Another rebuild may be queued, and the session may be stopped: all that happens amid a rebuild
if no step is about subscriptions. -/
def Operation.sparesTable : Operation → Bool
  | .queue | .stop => true
  | _ => false

/-- What steps do themselves, if they do not start the session. -/
def Operation.ofStep : Operation → Bool
  | .queue | .stop | .sync | .cancel => true
  | _ => false

/-- The operations of rebuilds themselves. -/
def Operation.ofRebuild : Operation → Bool
  | .cancel | .start | .stop => false
  | _ => true

end Watcher

mutual

/-- The step, with those that happen while it waits, does no operations to the watcher but those
that are allowed. What the builds do that it leads to is not meant. -/
def Step.within (may : Watcher.Operation → Bool) : Step → Bool
  | .edit _ => true
  | .start => may .sync && may .start
  | .rebuild | .notify _ | .event _ => may .queue
  | .stop => may .stop
  | .sync _ => may .sync
  | .cancel _ => may .cancel
  | .wait script => scriptWithin may script && may .stop

/-- The same for all steps of a script. -/
def scriptWithin (may : Watcher.Operation → Bool) : List Step → Bool
  | [] => true
  | step :: rest => step.within may && scriptWithin may rest

end

/-- The same for all company of the agenda. -/
def Agenda.within (may : Watcher.Operation → Bool) (agenda : Agenda) : Bool :=
  agenda.all fun company => scriptWithin may company.before && scriptWithin may company.after

variable {may : Watcher.Operation → Bool}

mutual

/-- A step that may not start the watcher does not start the session. -/
theorem Step.startFree_of_within (hstart : may .start = false) :
    ∀ step : Step, step.within may = true → step.startFree = true
  | .edit _, _ | .rebuild, _ | .notify _, _ | .event _, _ | .stop, _ | .sync _, _
  | .cancel _, _ => rfl
  | .start, h => Bool.noConfusion (hstart.symm.trans (Bool.and_eq_true_iff.1 h).2)
  | .wait script, h =>
    startFreeScript_of_within hstart script (Bool.and_eq_true_iff.1 h).1

/-- So it is with scripts. -/
theorem startFreeScript_of_within (hstart : may .start = false) :
    ∀ script : List Step, scriptWithin may script = true → startFreeScript script = true
  | [], _ => rfl
  | step :: rest, h => by
    obtain ⟨hstep, hrest⟩ := Bool.and_eq_true_iff.1 h
    exact Bool.and_eq_true_iff.2 ⟨step.startFree_of_within hstart hstep,
      startFreeScript_of_within hstart rest hrest⟩

end

mutual

/-- A step that does not start the session does no more than such steps may. -/
theorem Step.within_of_startFree
    (hmay : ∀ operation, operation.ofStep = true → may operation = true) :
    ∀ step : Step, step.startFree = true → step.within may = true
  | .edit _, _ => rfl
  | .rebuild, _ | .notify _, _ | .event _, _ => hmay .queue rfl
  | .stop, _ => hmay .stop rfl
  | .sync _, _ => hmay .sync rfl
  | .cancel _, _ => hmay .cancel rfl
  | .wait script, h =>
    Bool.and_eq_true_iff.2 ⟨scriptWithin_of_startFree hmay script h, hmay .stop rfl⟩

/-- So it is with scripts. -/
theorem scriptWithin_of_startFree
    (hmay : ∀ operation, operation.ofStep = true → may operation = true) :
    ∀ script : List Step, startFreeScript script = true → scriptWithin may script = true
  | [], _ => rfl
  | step :: rest, h => by
    obtain ⟨hstep, hrest⟩ := Bool.and_eq_true_iff.1 h
    exact Bool.and_eq_true_iff.2 ⟨step.within_of_startFree hmay hstep,
      scriptWithin_of_startFree hmay rest hrest⟩

end

namespace Session

variable {session after third : Session}

/-- The settings of the session stay, and its watcher goes through operations of the allowed kinds
only. -/
structure Does (may : Watcher.Operation → Bool) (session after : Session) : Prop where
  config_eq : after.config = session.config
  goes : session.watcher.Goes may after.watcher

theorem Does.refl (session : Session) : session.Does may session :=
  ⟨rfl, .refl⟩

theorem Does.trans (h : session.Does may after) (h' : after.Does may third) :
    session.Does may third :=
  ⟨h'.config_eq.trans h.config_eq, Relation.ReflTransGen.trans h.goes h'.goes⟩

/-- Nothing but the settings and the watcher is concerned. -/
theorem Does.of_eq (hconfig : after.config = session.config)
    (hwatcher : after.watcher = session.watcher) : session.Does may after :=
  ⟨hconfig, hwatcher ▸ .refl⟩

/-- A single operation. -/
theorem Does.of_operates {operation : Watcher.Operation} (hmay : may operation = true)
    (hconfig : after.config = session.config)
    (h : Watcher.Operates operation session.watcher after.watcher) : session.Does may after :=
  ⟨hconfig, .single ⟨operation, hmay, h⟩⟩

theorem does_stop (hstop : may .stop = true) (session : Session) : session.Does may session.stop :=
  .of_operates hstop rfl (.stop _)

theorem does_sync (hsync : may .sync = true) (session : Session) (paths : List Path) :
    session.Does may (session.sync paths) :=
  .of_operates hsync rfl (.sync _ paths)

end Session

/-- Builds and rebuilds do no other operations than those that are allowed. -/
structure Engine.Within (may : Watcher.Operation → Bool) (engine : Engine) : Prop where
  build : ∀ session : Session, session.Does may (engine.build session).1
  rounds : ∀ session : Session, session.watcher.rebuilding = false →
    session.Does may (engine.rounds { session with watcher := session.watcher.begin })

namespace Session

variable {engine : Engine}

theorem does_rebuild (he : engine.Within may) (hqueue : may .queue = true) (session : Session) :
    session.Does may (session.rebuild engine) := by
  unfold rebuild
  split
  · exact .of_operates hqueue rfl (.queue _)
  · next hr => exact he.rounds session (Bool.eq_false_iff.2 hr)

theorem does_notify (he : engine.Within may) (hqueue : may .queue = true) (path : Path)
    (session : Session) : session.Does may (session.notify engine path).1 := by
  unfold notify
  dsimp only
  split
  · have hnotice : ∀ host, session.Does may { session with host } := fun _ => .of_eq rfl rfl
    exact (hnotice _).trans (does_rebuild he hqueue { session with host := session.host.info _ })
  · exact .refl session

theorem does_dispatch (he : engine.Within may) (hqueue : may .queue = true) (event : FileEvent)
    (session : Session) : session.Does may (session.dispatch engine event).1 := by
  unfold dispatch
  split
  · split
    · exact does_notify he hqueue _ session
    · exact .refl session
  · exact .refl session

theorem does_start (he : engine.Within may) (hsync : may .sync = true) (hstart : may .start = true)
    (session : Session) : session.Does may (session.start engine).1 := by
  have hbuild := he.build session
  unfold start
  split
  · next hb => rwa [hb] at hbuild
  · next built bundle hb =>
    rw [hb] at hbuild
    exact (hbuild.trans (does_sync hsync built bundle.modules)).trans
      (.of_operates hstart rfl (.start _))

theorem does_cancel (hcancel : may .cancel = true) (path : Path) (session : Session) :
    session.Does may (session.cancel path).1 := by
  unfold cancel
  split
  · exact .of_operates hcancel rfl (.cancel _ path)
  · exact .refl session

end Session

mutual

/-- A step does the operations that it may do itself, and what the engine does. -/
theorem Step.does_run {engine : Engine} (he : engine.Within may) :
    ∀ (step : Step) (session : Session), step.within may = true →
      session.Does may (step.run engine session).1
  | .edit _, _, _ => .of_eq rfl rfl
  | .start, session, h =>
    session.does_start he (Bool.and_eq_true_iff.1 h).1 (Bool.and_eq_true_iff.1 h).2
  | .rebuild, session, h => session.does_rebuild he h
  | .stop, session, h => session.does_stop h
  | .notify path, session, h => session.does_notify he h path
  | .sync paths, session, h => session.does_sync h paths
  | .event event, session, h => session.does_dispatch he h event
  | .cancel path, session, h => session.does_cancel h path
  | .wait script, session, h => by
    obtain ⟨hscript, hstop⟩ := Bool.and_eq_true_iff.1 h
    rw [Step.run]
    exact (does_runScript he script session hscript).trans (Session.does_stop hstop _)

/-- So do the steps of a script. -/
theorem does_runScript {engine : Engine} (he : engine.Within may) :
    ∀ (script : List Step) (session : Session), scriptWithin may script = true →
      session.Does may (runScript engine script session).1
  | [], session, _ => .refl session
  | step :: rest, session, h => by
    obtain ⟨hstep, hrest⟩ := Bool.and_eq_true_iff.1 h
    rw [runScript]
    split
    · exact .refl session
    · exact (step.does_run he session hstep).trans (does_runScript he rest _ hrest)

end

namespace Session

variable {engine : Engine}

theorem does_runAside (he : engine.Within may) (steps : List Step) (session : Session)
    (h : scriptWithin may steps = true) : session.Does may (runAside engine steps session) := by
  induction steps generalizing session with
  | nil => exact .refl session
  | cons step rest ih =>
    obtain ⟨hstep, hrest⟩ := Bool.and_eq_true_iff.1 h
    have hrun := step.does_run he session hstep
    rw [runAside]
    cases houtcome : step.run engine session with
    | mk ran outcome =>
      rw [houtcome] at hrun
      have hnoted : ran.Does may { ran with aside := ran.aside ++ [outcome] } := .of_eq rfl rfl
      exact (hrun.trans hnoted).trans (ih _ hrest)

/-- A build does what its company does. -/
theorem does_buildAmid (he : engine.Within may) {before after : List Step} (session : Session)
    (hbefore : scriptWithin may before = true) (hafter : scriptWithin may after = true) :
    session.Does may (session.buildAmid engine before after).1 := by
  have hbegun : session.Does may { session with builds := session.builds + 1 } := .of_eq rfl rfl
  have haside := hbegun.trans (does_runAside he before _ hbefore)
  obtain ⟨amid, host, hamid, ⟨_, -, hbuild⟩ | ⟨_, -, hbuild⟩⟩ :=
    buildAmid_cases engine before after session <;> rw [hbuild] <;> rw [← hamid] at haside
  · exact haside.trans (.of_eq rfl rfl)
  · have hbuilt : amid.Does may { amid with host } := .of_eq rfl rfl
    exact (haside.trans hbuilt).trans (does_runAside he after { amid with host } hafter)

end Session

/-! ## Amid a rebuild -/

/-- An engine that does nothing: its builds fail at once, and its rebuilds end as they begin. -/
def Engine.still : Engine where
  build session := (session, .error .longNumber)
  rounds session := { session with watcher := session.watcher.settle }

/-- A watcher that is in no rebuild is the same after one has begun and ended. -/
theorem Watcher.settle_begin {watcher : Watcher} (h : watcher.rebuilding = false) :
    watcher.begin.settle = watcher := by
  cases watcher
  cases h
  rfl

theorem Engine.within_still : Engine.still.Within may where
  build session := .refl session
  rounds _ hr := .of_eq rfl (Watcher.settle_begin hr)

namespace Session

/-- Amid a rebuild the company of a build does only what it may do itself, with any engine. -/
theorem does_buildAmid_amid (engine : Engine) {before after : List Step} (session : Session)
    (hbefore : scriptWithin may before = true) (hafter : scriptWithin may after = true)
    (hstart : may .start = false) (hr : session.watcher.rebuilding = true) :
    session.Does may (session.buildAmid engine before after).1 := by
  have hb := startFreeScript_of_within hstart before hbefore
  have ha := startFreeScript_of_within hstart after hafter
  rw [(buildAmid_amid engine session hb ha hr).1,
    ← (buildAmid_amid .still session hb ha hr).1]
  exact does_buildAmid Engine.within_still session hbefore hafter

/-! ## The engine of an agenda -/

/-- What follows a build that succeeds. -/
theorem does_succeed (hmay : ∀ operation, operation.ofRebuild = true → may operation = true)
    (session : Session) (bundle : Bundle) : session.Does may (session.succeed bundle) := by
  have hcount : session.Does may { session with watcher := session.watcher.count } :=
    .of_operates (hmay .count rfl) rfl (.count _)
  unfold succeed
  dsimp only
  split
  · exact hcount.trans (does_sync (hmay .sync rfl) _ bundle.modules)
  · exact hcount

theorem does_rounds (hmay : ∀ operation, operation.ofRebuild = true → may operation = true)
    {build : Session → Session × Except Error Bundle} {again : Session → Session}
    (hb : ∀ session : Session, session.Does may (build session).1)
    (ha : ∀ session : Session, session.Does may (again session)) (session : Session) :
    session.Does may (rounds build again session) := by
  have hbuild := hb session
  unfold rounds
  split
  · next built error hbuilt =>
    rw [hbuilt] at hbuild
    exact hbuild.trans (.of_operates (hmay .fail rfl) rfl (.fail _ error))
  · next built bundle hbuilt =>
    rw [hbuilt] at hbuild
    have hsucceed := hbuild.trans (does_succeed hmay built bundle)
    dsimp only
    split
    · have htaken : (built.succeed bundle).Does may
          { built.succeed bundle with watcher := (built.succeed bundle).watcher.dequeue } :=
        .of_operates (hmay .dequeue rfl) rfl (.dequeue _)
      exact (hsucceed.trans htaken).trans (ha _)
    · exact hsucceed.trans (.of_operates (hmay .settle rfl) rfl (.settle _))

end Session

/-- A rebuild that begins does what it does from then on. -/
theorem Engine.Within.of_rounds {engine : Engine} (hbegin : may .begin = true)
    (hb : ∀ session : Session, session.Does may (engine.build session).1)
    (hr : ∀ session : Session, session.Does may (engine.rounds session)) :
    engine.Within may where
  build := hb
  rounds session _ := by
    have hbegun : session.Does may { session with watcher := session.watcher.begin } :=
      .of_operates hbegin rfl (.begin _)
    exact hbegun.trans (hr _)

/-- The engine of an agenda does what rebuilds do, and what the company of builds does. -/
theorem Engine.does_ofAgenda
    (hmay : ∀ operation, operation.ofRebuild = true → may operation = true) (agenda : Agenda)
    (h : agenda.within may = true) :
    (∀ session : Session, session.Does may ((ofAgenda agenda).build session).1) ∧
      ∀ session : Session, session.Does may ((ofAgenda agenda).rounds session) := by
  induction agenda with
  | nil =>
    have hbuild : ∀ session : Session, session.Does may session.build.1 := fun _ => .of_eq rfl rfl
    have hsettle : ∀ session : Session,
        session.Does may { session with watcher := session.watcher.settle } := fun _ =>
      .of_operates (hmay .settle rfl) rfl (.settle _)
    exact ⟨hbuild, Session.does_rounds hmay hbuild hsettle⟩
  | cons company rest ih =>
    obtain ⟨hcompany, hrest⟩ := Bool.and_eq_true_iff.1 h
    obtain ⟨hbefore, hafter⟩ := Bool.and_eq_true_iff.1 hcompany
    obtain ⟨hlater, hagain⟩ := ih hrest
    have hwithin : (ofAgenda rest).Within may := .of_rounds (hmay .begin rfl) hlater hagain
    have hbuild : ∀ session : Session,
        session.Does may ((ofAgenda (company :: rest)).build session).1 := by
      intro session
      rw [ofAgenda]
      dsimp only
      split
      · exact .of_eq rfl rfl
      · split
        · exact session.does_buildAmid hwithin hbefore hafter
        · exact hlater session
    exact ⟨hbuild, Session.does_rounds hmay hbuild hagain⟩

theorem Engine.within_ofAgenda
    (hmay : ∀ operation, operation.ofRebuild = true → may operation = true) {agenda : Agenda}
    (h : agenda.within may = true) : (Engine.ofAgenda agenda).Within may := by
  obtain ⟨hbuild, hrounds⟩ := does_ofAgenda hmay agenda h
  exact .of_rounds (hmay .begin rfl) hbuild hrounds

end Bundler
