import Bundler.Proofs.Operations
import Bundler.Proofs.Syncing

/-!
# The builds that steps lead to

A step asks for a rebuild at once (`Step.asked?`), or it waits, and the steps of its script do so,
or it leads to no build. `Step.rounds` lists the builds of these rebuilds, in order. Between two
rebuilds a single step either is the rebuild that it asks for, with the builds that are listed, or
it does to the watcher only what it may do itself (`Step.single_cases`).
-/

namespace Bundler

variable {may : Watcher.Operation → Bool} {agenda : Agenda}

theorem Agenda.startFree_of_within (hstart : may .start = false)
    (h : agenda.within may = true) : agenda.startFree = true := by
  refine List.all_eq_true.2 fun company hm => ?_
  obtain ⟨hbefore, hafter⟩ := Bool.and_eq_true_iff.1 (List.all_eq_true.1 h company hm)
  exact Bool.and_eq_true_iff.2 ⟨startFreeScript_of_within hstart _ hbefore,
    startFreeScript_of_within hstart _ hafter⟩

theorem Agenda.within_of_startFree
    (hmay : ∀ operation, operation.ofStep = true → may operation = true)
    (h : agenda.startFree = true) : agenda.within may = true := by
  refine List.all_eq_true.2 fun company hm => ?_
  obtain ⟨hbefore, hafter⟩ := Bool.and_eq_true_iff.1 (List.all_eq_true.1 h company hm)
  exact Bool.and_eq_true_iff.2 ⟨scriptWithin_of_startFree hmay _ hbefore,
    scriptWithin_of_startFree hmay _ hafter⟩

theorem Agenda.within_company (h : agenda.within may = true) (number : Nat) :
    scriptWithin may (agenda.company number).before = true ∧
      scriptWithin may (agenda.company number).after = true :=
  Bool.and_eq_true_iff.1 (Session.company_of_all h number rfl)

namespace Session

variable {session after : Session} {result : Except Error Bundle}

/-- A build amid a rebuild does what its company may do. -/
theorem does_of_build (h : agenda.within may = true) (hstart : may .start = false)
    (hr : session.watcher.rebuilding = true)
    (hb : (Engine.ofAgenda agenda).build session = (after, result)) : session.Does may after := by
  obtain ⟨hbefore, hafter⟩ := agenda.within_company h (session.builds + 1)
  have hdoes := does_buildAmid_amid (.ofAgenda []) session hbefore hafter hstart hr
  rwa [← build_ofAgenda (Agenda.startFree_of_within hstart h) hr, hb] at hdoes

/-- A build without company is one during which nothing happens. -/
theorem build_of_quiet (quiet : ∀ company ∈ agenda, company.number ≠ session.builds + 1) :
    (Engine.ofAgenda agenda).build session = session.build := by
  induction agenda with
  | nil => rfl
  | cons first rest ih =>
    have hne := quiet first List.mem_cons_self
    rw [build_cons, if_neg (Ne.symm hne), ih fun company hm => quiet company (.tail _ hm), ite_self]

/-- A new session without company starts with a build of its own. If that fails, the watcher stays
new. If it succeeds, the modules are subscribed, and then the observer is started. -/
theorem start_cases (new : session.watcher = {})
    (quiet : ∀ company ∈ agenda, company.number ≠ session.builds + 1) :
    (∃ host error failed, session.host.build session.config = (host, .error error) ∧
      session.start (.ofAgenda agenda) = (failed, .error error) ∧ failed.watcher = {}) ∨
    ∃ host bundle started, session.host.build session.config = (host, .ok bundle) ∧
      session.start (.ofAgenda agenda) = (started, .ok bundle) ∧
      started.watcher = (({} : Watcher).sync bundle.modules).start := by
  unfold start
  rw [build_of_quiet quiet, build]
  cases session.host.build session.config with
  | mk host result =>
    cases result with
    | error error => exact .inl ⟨host, error, _, rfl, rfl, new⟩
    | ok bundle =>
      refine .inr ⟨host, bundle, _, rfl, rfl, ?_⟩
      rw [← new]
      rfl

/-- No rebuild is running, and none is queued. -/
def Idle (session : Session) : Prop :=
  session.watcher.rebuilding = false ∧ session.watcher.pending = false

theorem Idle.of_start {paths : List Path}
    (h : session.watcher = (({} : Watcher).sync paths).start) : session.Idle := by
  obtain ⟨_, _, _, hsync⟩ := Watcher.onTable_sync {} paths
  rw [Idle, h, hsync]
  exact ⟨rfl, rfl⟩

theorem Idle.of_keeps (h : session.Idle) (hkeeps : session.watcher.Keeps after.watcher) :
    after.Idle :=
  ⟨hkeeps.rebuilding_eq.trans h.1, hkeeps.idle h.1 h.2⟩

/-- The builds of a rebuild that the session is asked for. Amid another it is only queued. -/
def rebuildRounds (agenda : Agenda) (session : Session) : List Round :=
  if session.watcher.rebuilding then []
  else agenda.rounds { session with watcher := session.watcher.begin }

/-- The session with the notice that a file changed, if it heeds the path. -/
def told? (path : Path) (session : Session) : Option Session :=
  if session.heeds path then some (session.noted path) else none

end Session

/-- The session that the step asks for a rebuild of, if it asks for one. -/
def Step.asked? : Step → Session → Option Session
  | .rebuild, session => some session
  | .notify path, session => session.told? path
  | .event report, session =>
    (if report.isPossible then report.changed? else none).bind fun path => session.told? path
  | _, _ => none

mutual

/-- The builds that the step leads to by rebuilds, in order. -/
def Step.rounds (agenda : Agenda) : Step → Session → List Session.Round
  | .wait script, session => scriptRounds agenda script session
  | step, session => ((step.asked? session).map (·.rebuildRounds agenda)).getD []

/-- The builds that the steps of a script lead to, up to one after which the session is stopped. -/
def scriptRounds (agenda : Agenda) : List Step → Session → List Session.Round
  | [], _ => []
  | step :: rest, session =>
    if session.watcher.stopped then []
    else step.rounds agenda session ++
      scriptRounds agenda rest (step.run (.ofAgenda agenda) session).1

end

/-- The step is a single one: it does not start the session, and it does not wait. -/
def Step.isSingle : Step → Bool
  | .start | .wait _ => false
  | _ => true

theorem Step.startFree_of_isSingle {step : Step} (h : step.isSingle = true) :
    step.startFree = true := by
  cases step with
  | start | wait => cases h
  | _ => rfl

theorem startFreeScript_of_isSingle {script : List Step}
    (h : ∀ step ∈ script, step.isSingle = true) : startFreeScript script = true := by
  induction script with
  | nil => rfl
  | cons step rest ih =>
    have hstep := Step.startFree_of_isSingle (h step List.mem_cons_self)
    exact Bool.and_eq_true_iff.2 ⟨hstep, ih fun step hm => h step (.tail _ hm)⟩

variable {step : Step} {session asked : Session} {engine : Engine}

/-- What is asked for is a rebuild of the session as it is, with a notice at most. -/
theorem Step.asked_eq (h : step.asked? session = some asked) :
    ∃ host, asked = { session with host } := by
  have htold : ∀ path, session.told? path = some asked → ∃ host, asked = { session with host } := by
    intro path htold
    unfold Session.told? at htold
    split at htold
    · cases htold
      exact ⟨_, rfl⟩
    · cases htold
  cases step with
  | rebuild =>
    cases h
    exact ⟨session.host, rfl⟩
  | notify path => exact htold path h
  | event report =>
    obtain ⟨path, -, hpath⟩ := Option.bind_eq_some_iff.1 h
    exact htold path hpath
  | _ => cases h

/-- A notification leads to the rebuild that it asks for. -/
theorem Session.notify_of_told (engine : Engine) (path : Path) (session : Session) :
    (session.notify engine path).1 =
      ((session.told? path).map (·.rebuild engine)).getD session := by
  rw [notify_eq, told?]
  split <;> rfl

/-- So does an event. -/
theorem Session.dispatch_of_told (engine : Engine) (report : FileEvent) (session : Session) :
    (session.dispatch engine report).1 =
      (((Step.event report).asked? session).map (·.rebuild engine)).getD session := by
  rw [Step.asked?, dispatch]
  split
  · cases report.changed? with
    | some path => exact session.notify_of_told engine path
    | none => rfl
  · rfl

/-- A step that asks for a rebuild leads to nothing else. -/
theorem Step.run_of_asked (h : step.asked? session = some asked) :
    (step.run engine session).1 = asked.rebuild engine := by
  cases step with
  | rebuild =>
    cases h
    rfl
  | notify path =>
    have htold : session.told? path = some asked := h
    have hrun : ((Step.notify path).run engine session).1 = (session.notify engine path).1 := rfl
    rw [hrun, session.notify_of_told, htold]
    rfl
  | event report =>
    have hrun : ((Step.event report).run engine session).1 = (session.dispatch engine report).1 :=
      rfl
    rw [hrun, session.dispatch_of_told, h]
    rfl
  | _ => cases h

/-- A single step that asks for none does to the watcher what it may do itself, and no build
begins. -/
theorem Step.quiet (single : step.isSingle = true) (h : step.asked? session = none)
    (hstep : step.within may = true) : session.Does may (step.run engine session).1 ∧
      (step.run engine session).1.builds = session.builds := by
  cases step with
  | edit change => exact ⟨.of_eq rfl rfl, rfl⟩
  | start | wait => cases single
  | rebuild => cases h
  | stop => exact ⟨session.does_stop hstep, rfl⟩
  | notify path =>
    have htold : session.told? path = none := h
    have hrun : ((Step.notify path).run engine session).1 = (session.notify engine path).1 := rfl
    rw [hrun, session.notify_of_told, htold]
    exact ⟨.refl session, rfl⟩
  | sync paths => exact ⟨session.does_sync hstep paths, rfl⟩
  | event report =>
    have hrun : ((Step.event report).run engine session).1 = (session.dispatch engine report).1 :=
      rfl
    rw [hrun, session.dispatch_of_told, h]
    exact ⟨.refl session, rfl⟩
  | cancel path =>
    refine ⟨session.does_cancel hstep path, ?_⟩
    have hrun : ((Step.cancel path).run engine session).1 = (session.cancel path).1 := rfl
    rw [hrun, Session.cancel]
    split <;> rfl

/-- Between two rebuilds, a single step is a rebuild of the session as it is, or no build begins and
it does to the watcher what it may do itself. -/
theorem Step.single_cases (single : step.isSingle = true) (hstep : step.within may = true)
    (free : agenda.startFree = true) (idle : session.Idle) :
    (∃ host, Session.Rounds agenda { session with host, watcher := session.watcher.begin }
      (step.rounds agenda session) (step.run (.ofAgenda agenda) session).1) ∨
    (step.rounds agenda session = [] ∧ session.Does may (step.run (.ofAgenda agenda) session).1 ∧
      (step.run (.ofAgenda agenda) session).1.builds = session.builds) := by
  have hrounds : step.rounds agenda session =
      ((step.asked? session).map (·.rebuildRounds agenda)).getD [] := by
    cases step with
    | wait => cases single
    | _ => rfl
  cases hasked : step.asked? session with
  | none =>
    rw [hasked] at hrounds
    exact .inr ⟨hrounds, step.quiet single hasked hstep⟩
  | some asked =>
    obtain ⟨host, rfl⟩ := step.asked_eq hasked
    refine .inl ⟨host, ?_⟩
    have hidle : ({ session with host } : Session).watcher.rebuilding = false := idle.1
    have hbuilds : step.rounds agenda session = agenda.rounds
        { session with host, watcher := session.watcher.begin } := by
      rw [hrounds, hasked]
      exact if_neg (Bool.eq_false_iff.1 idle.1)
    rw [hbuilds, step.run_of_asked hasked]
    exact Session.rounds_of_idle free hidle idle.2

end Bundler
