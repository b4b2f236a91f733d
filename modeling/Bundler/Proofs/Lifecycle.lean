import Bundler.Proofs.Directories
import Bundler.Proofs.History

/-!
# The life of a watch session

A session that is watched starts, runs the steps of a script until it is stopped, and is stopped at
the end. Its observer is started once the directories of the first bundle are scheduled, and is
stopped and joined once (`Watcher.Lives`). The steps that are run and the builds that they lead to
are listed (`Session.turns`, `Turn.builds`): a build that fails is the last one, the step that leads
to it is the last one, and its error is the one that the watch ends with (`Session.Tally`).
`Session.watch_lifecycle` puts both together.
-/

namespace Bundler

/-- The call is about the observer itself, not about a directory. -/
def ObserverCall.isControl : ObserverCall → Bool
  | .schedule _ | .unschedule _ => false
  | .start | .stop | .join => true

namespace Watcher

variable {watcher other third : Watcher} {first : List ObserverCall}

/-- The observer was asked for more, but only for directories. -/
def Asks (watcher other : Watcher) : Prop :=
  ∃ asked : List ObserverCall, other.calls = watcher.calls ++ asked ∧
    asked.filter (·.isControl) = []

theorem Asks.of_eq (h : other.calls = watcher.calls) : watcher.Asks other :=
  ⟨[], by rw [h, List.append_nil], rfl⟩

theorem Asks.trans (h : watcher.Asks other) (h' : other.Asks third) : watcher.Asks third := by
  obtain ⟨asked, hasked, hfirst⟩ := h
  obtain ⟨later, hlater, hsecond⟩ := h'
  refine ⟨asked ++ later, ?_, ?_⟩
  · rw [hlater, hasked, List.append_assoc]
  · rw [List.filter_append, hfirst, hsecond, List.nil_append]

theorem asks_subscribe (watcher : Watcher) (path : Path) :
    watcher.Asks (watcher.subscribe path) := by
  unfold subscribe schedule
  dsimp only
  split
  · exact .of_eq rfl
  · exact ⟨_, rfl, rfl⟩

theorem asks_unsubscribe (watcher : Watcher) (path : Path) :
    watcher.Asks (watcher.unsubscribe path) := by
  unfold unsubscribe
  dsimp only
  split
  · exact .of_eq rfl
  · exact ⟨_, rfl, rfl⟩

theorem asks_sync (watcher : Watcher) (paths : List Path) : watcher.Asks (watcher.sync paths) :=
  sync_induction paths (.of_eq rfl) (fun h path => h.trans (asks_unsubscribe _ path))
    fun h path => h.trans (asks_subscribe _ path)

/-- The observer was started after its first calls and runs, or it was stopped and joined as well,
and then the watch is stopped. -/
structure Lives (first : List ObserverCall) (watcher : Watcher) : Prop where
  calls_eq : ∃ later, watcher.calls = first ++ .start :: later
  control_eq : watcher.calls.filter (·.isControl) =
    if watcher.started then [.start] else [.start, .stop, .join]
  stopped : watcher.started = false → watcher.stopped = true

/-- Only the calls and the two flags matter. -/
theorem Lives.of_asks (h : watcher.Lives first) (hasks : watcher.Asks other)
    (hstarted : other.started = watcher.started)
    (hstopped : watcher.stopped = true → other.stopped = true) : other.Lives first := by
  obtain ⟨asked, hcalls, hcontrol⟩ := hasks
  obtain ⟨later, hlater⟩ := h.calls_eq
  refine ⟨⟨later ++ asked, ?_⟩, ?_, fun hs => hstopped (h.stopped (hstarted ▸ hs))⟩
  · rw [hcalls, hlater, List.append_assoc, List.cons_append]
  · rw [hcalls, List.filter_append, hcontrol, List.append_nil, h.control_eq, hstarted]

/-- The first stop is the one that the observer is told of. -/
theorem Lives.stop (h : watcher.Lives first) :
    watcher.stop.Lives first ∧ watcher.stop.started = false := by
  unfold Watcher.stop
  dsimp only
  split
  · next hs =>
    obtain ⟨later, hlater⟩ := h.calls_eq
    have hcontrol := h.control_eq
    have hcalls : ((watcher.call .stop).call .join).calls = watcher.calls ++ [.stop, .join] :=
      List.append_assoc ..
    rw [if_pos hs] at hcontrol
    refine ⟨⟨⟨later ++ [.stop, .join], ?_⟩, ?_, fun _ => rfl⟩, rfl⟩
    · exact hcalls.trans (by rw [hlater, List.append_assoc, List.cons_append])
    · have hfilter : ((watcher.call .stop).call .join).calls.filter (·.isControl) =
          [.start, .stop, .join] := by
        rw [hcalls, List.filter_append, hcontrol]
        rfl
      exact hfilter
  · next hs =>
    exact ⟨h.of_asks (.of_eq rfl) rfl fun _ => rfl, Bool.eq_false_iff.2 hs⟩

/-- All that happens after the start. -/
def Operation.followsStart : Operation → Bool
  | .start => false
  | _ => true

theorem Lives.operates {operation : Operation} (hop : Operates operation watcher other)
    (hmay : operation.followsStart = true) (h : watcher.Lives first) : other.Lives first := by
  cases hop with
  | sync _ paths =>
    obtain ⟨_, _, _, hsync⟩ := onTable_sync watcher paths
    refine h.of_asks (asks_sync watcher paths) ?_ fun hs => ?_ <;> rw [hsync]
    exact hs
  | start => cases hmay
  | stop => exact h.stop.1
  | fail => exact h.of_asks (.of_eq rfl) rfl fun _ => rfl
  | cancel | begin | queue | dequeue | settle | count =>
    exact h.of_asks (.of_eq rfl) rfl id

/-- The observer is started when the first subscriptions are there. -/
theorem lives_start (paths : List Path) :
    (({} : Watcher).sync paths).start.Lives (({} : Watcher).sync paths).calls := by
  obtain ⟨asked, hcalls, hcontrol⟩ := asks_sync {} paths
  have hdirectories : (({} : Watcher).sync paths).calls.filter (·.isControl) = [] := by
    rw [hcalls]
    exact hcontrol
  refine ⟨⟨[], rfl⟩, ?_, fun h => Bool.noConfusion h⟩
  exact (List.filter_append ..).trans (by rw [hdirectories]; rfl)

end Watcher

namespace Session

open Watcher (Operation)

variable {session after final : Session} {agenda : Agenda} {rounds : List Round}

/-- What steps do themselves is not about failures. -/
theorem Does.failure_eq (h : session.Does Operation.ofStep after) :
    after.watcher.failure = session.watcher.failure := by
  refine h.goes.keeps (P := fun watcher => watcher.failure = session.watcher.failure)
    (fun {_ watcher _} hop hmay hp => ?_) rfl
  cases hop with
  | sync _ paths =>
    obtain ⟨_, _, _, hsync⟩ := Watcher.onTable_sync watcher paths
    rw [hsync]
    exact hp
  | stop =>
    obtain ⟨_, _, hstop⟩ := watcher.exists_stop_eq
    rw [hstop]
    exact hp
  | cancel | queue => exact hp
  | _ => cases hmay

/-- Neither is a build that succeeds, with what follows it. -/
theorem failure_of_build_ok {bundle : Bundle} (free : agenda.startFree = true)
    (hr : session.watcher.rebuilding = true)
    (hb : (Engine.ofAgenda agenda).build session = (after, .ok bundle)) :
    (after.succeed bundle).watcher.failure = session.watcher.failure := by
  have hwithin : agenda.within Operation.ofStep = true :=
    Agenda.within_of_startFree (fun _ h => h) free
  obtain ⟨_, _, _, hsucceed⟩ := onTable_succeed after bundle
  rw [hsucceed]
  exact (does_of_build hwithin rfl hr hb).failure_eq

/-- A rebuild leaves behind the error of the build that failed, if one did. -/
theorem Rounds.failure_iff (h : Rounds agenda session rounds final)
    (free : agenda.startFree = true) (hr : session.watcher.rebuilding = true)
    (fine : session.watcher.failure = none) (error : Error) :
    final.watcher.failure = some error ↔ ∃ round ∈ rounds, round.result = .error error := by
  induction h with
  | failed =>
    simp only [List.mem_singleton, exists_eq_left]
    exact ⟨fun h => congrArg Except.error (Option.some.inj h), fun h => by cases h; rfl⟩
  | last build =>
    have hnone := (failure_of_build_ok free hr build).trans fine
    simp only [List.mem_singleton, exists_eq_left]
    exact ⟨fun h => (nomatch hnone.symm.trans h), fun h => nomatch h⟩
  | again build _ _ ih =>
    have hnone := (failure_of_build_ok free hr build).trans fine
    rw [ih (amid_of_build_ok free hr build).rebuilding hnone]
    constructor
    · rintro ⟨round, hm, he⟩
      exact ⟨round, .tail _ hm, he⟩
    · rintro ⟨round, hm, he⟩
      rcases List.mem_cons.1 hm with rfl | hm
      · cases he
      · exact ⟨round, hm, he⟩

/-- What the builds of rebuilds add up to, if none had failed before them. -/
structure Tally (agenda : Agenda) (session : Session) (rounds : List Round) (final : Session) :
    Prop where
  /-- The rounds are builds of the session. -/
  build : ∀ round ∈ rounds,
    (Engine.ofAgenda agenda).build round.before = (round.after, round.result)
  /-- There are no other builds. -/
  builds_eq : final.builds = session.builds + rounds.length
  /-- No build follows one that fails. -/
  last : ∀ round ∈ rounds.dropLast, ∀ error, round.result ≠ .error error
  /-- The failure of the session is that of a build. -/
  failure_iff : ∀ error, final.watcher.failure = some error ↔
    ∃ round ∈ rounds, round.result = .error error
  /-- A failure ends the session. -/
  stopped : final.watcher.failure ≠ none → final.watcher.stopped = true

theorem Rounds.tally
    (h : Rounds agenda { session with watcher := session.watcher.begin } rounds final)
    (free : agenda.startFree = true) (empty : session.watcher.pending = false)
    (fine : session.watcher.failure = none) : Tally agenda session rounds final := by
  have hserial := h.serial free empty
  have hfailure := h.failure_iff free rfl fine
  refine ⟨hserial.build, hserial.builds_eq, fun round hm error he => ?_, hfailure,
    fun hfailed => ?_⟩
  · obtain ⟨i, hi, rfl⟩ := List.getElem_of_mem hm
    rw [List.length_dropLast] at hi
    rw [List.getElem_dropLast] at he
    have hlast := (hserial.failed i (by omega) error he).1
    omega
  · obtain ⟨error, he⟩ := Option.ne_none_iff_exists'.1 hfailed
    obtain ⟨round, hm, hresult⟩ := (hfailure error).1 he
    obtain ⟨i, hi, rfl⟩ := List.getElem_of_mem hm
    exact (hserial.failed i hi error hresult).2.2

/-- No build, and no failure. -/
theorem Tally.nil (builds_eq : final.builds = session.builds)
    (fine : final.watcher.failure = none) : Tally agenda session [] final where
  build := fun _ h => absurd h List.not_mem_nil
  builds_eq := builds_eq
  last := fun _ h => absurd h List.not_mem_nil
  failure_iff _ := ⟨fun h => (nomatch fine.symm.trans h), fun ⟨_, h, _⟩ => nomatch h⟩
  stopped h := absurd fine h

/-- If the session has not failed after them, all builds succeeded. -/
theorem Tally.ok (h : Tally agenda session rounds final) (fine : final.watcher.failure = none) :
    ∀ round ∈ rounds, ∀ error, round.result ≠ .error error :=
  fun round hm error he => nomatch fine.symm.trans ((h.failure_iff error).2 ⟨round, hm, he⟩)

/-- After builds that succeed, the tally goes on. -/
theorem Tally.append {later : List Round} (h : Tally agenda session rounds after)
    (fine : after.watcher.failure = none) (h' : Tally agenda after later final) :
    Tally agenda session (rounds ++ later) final where
  build := fun round hm => (List.mem_append.1 hm).elim (h.build round) (h'.build round)
  builds_eq := by
    rw [h'.builds_eq, h.builds_eq, List.length_append, Nat.add_assoc]
  last := by
    rw [List.dropLast_append]
    split
    · exact fun round hm => h.ok fine round (List.mem_of_mem_dropLast hm)
    · exact fun round hm => (List.mem_append.1 hm).elim (h.ok fine round) (h'.last round)
  failure_iff error := by
    rw [h'.failure_iff]
    constructor
    · rintro ⟨round, hm, he⟩
      exact ⟨round, List.mem_append_right _ hm, he⟩
    · rintro ⟨round, hm, he⟩
      rcases List.mem_append.1 hm with hm | hm
      · exact absurd he (h.ok fine round hm error)
      · exact ⟨round, hm, he⟩
  stopped := h'.stopped

/-- To stop the session adds nothing. -/
theorem Tally.stop (h : Tally agenda session rounds final) :
    Tally agenda session rounds final.stop := by
  obtain ⟨_, _, hstop⟩ := final.watcher.exists_stop_eq
  refine ⟨h.build, h.builds_eq, h.last, fun error => ?_, fun _ => ?_⟩ <;>
    rw [Session.stop, hstop]
  exact h.failure_iff error

/-- What a single step between two rebuilds adds up to. -/
theorem tally_step {step : Step} (free : agenda.startFree = true) (single : step.isSingle = true)
    (idle : session.Idle) (fine : session.watcher.failure = none) :
    Tally agenda session (step.rounds agenda session) (step.run (.ofAgenda agenda) session).1 := by
  have hwithin : step.within Operation.ofStep = true :=
    step.within_of_startFree (fun _ h => h) (Step.startFree_of_isSingle single)
  rcases step.single_cases single hwithin free idle with
    ⟨host, hrounds⟩ | ⟨hnone, hdoes, hbuilds⟩
  · have htally : Tally agenda { session with host } _ _ := Rounds.tally hrounds free idle.2 fine
    exact { htally with }
  · rw [hnone]
    exact .nil hbuilds (hdoes.failure_eq.trans fine)

/-! ## Scripts -/

/-- A step of a script, and the session that meets it. -/
structure Turn where
  session : Session
  step : Step

/-- The builds that the step leads to. -/
def Turn.builds (agenda : Agenda) (turn : Turn) : List Round :=
  turn.step.rounds agenda turn.session

/-- What the step results in. -/
def Turn.outcome (engine : Engine) (turn : Turn) : Outcome :=
  (turn.step.run engine turn.session).2

/-- The steps of a script that are run: all of them, or those until the session is stopped. -/
def turns (engine : Engine) : List Step → Session → List Turn
  | [], _ => []
  | step :: rest, session =>
    if session.watcher.stopped then []
    else ⟨session, step⟩ :: turns engine rest (step.run engine session).1

variable {script : List Step}

/-- The steps that are run are the first ones of the script. -/
theorem steps_turns (engine : Engine) (script : List Step) (session : Session) :
    (turns engine script session).map (·.step) <+: script := by
  induction script generalizing session with
  | nil => exact List.nil_prefix
  | cons step rest ih =>
    rw [turns]
    split
    · exact List.nil_prefix
    · exact List.cons_prefix_cons.2 ⟨rfl, ih _⟩

/-- The results of a script are those of the steps that are run. -/
theorem log_runScript (engine : Engine) (script : List Step) (session : Session) :
    (runScript engine script session).2.2 =
      (turns engine script session).map (·.outcome engine) := by
  induction script generalizing session with
  | nil => rfl
  | cons step rest ih =>
    rw [runScript, turns]
    split
    · rfl
    · exact congrArg (_ :: ·) (ih _)

/-- A script is used up only if the session is not stopped. -/
theorem stopped_of_interrupted (engine : Engine) (script : List Step) (session : Session)
    (h : (runScript engine script session).2.1 = true) :
    (runScript engine script session).1.watcher.stopped = false := by
  induction script generalizing session with
  | nil => exact Bool.not_eq_true' .. ▸ h
  | cons step rest ih =>
    rw [runScript] at h ⊢
    split at h
    · cases h
    · next hs =>
      rw [if_neg hs]
      exact ih _ h

/-- In a session that is stopped, no step of a script is run. -/
theorem runScript_of_stopped (engine : Engine) (script : List Step)
    (h : session.watcher.stopped = true) :
    (runScript engine script session).1 = session ∧ turns engine script session = [] := by
  cases script with
  | nil => exact ⟨rfl, rfl⟩
  | cons step rest =>
    rw [runScript, turns, if_pos h, if_pos h]
    exact ⟨rfl, rfl⟩

/-- What a script of single steps adds up to between two rebuilds. No step follows one that leads to
a build that fails. -/
theorem tally_script (free : agenda.startFree = true)
    (single : ∀ step ∈ script, step.isSingle = true) (idle : session.Idle)
    (fine : session.watcher.failure = none) :
    Tally agenda session ((turns (.ofAgenda agenda) script session).flatMap (·.builds agenda))
        (runScript (.ofAgenda agenda) script session).1 ∧
      ∀ turn ∈ (turns (.ofAgenda agenda) script session).dropLast, ∀ round ∈ turn.builds agenda,
        ∀ error, round.result ≠ .error error := by
  induction script generalizing session with
  | nil => exact ⟨.nil rfl fine, fun _ h => absurd h List.not_mem_nil⟩
  | cons step rest ih =>
    have hstep := tally_step free (single step List.mem_cons_self) idle fine
    rw [runScript, turns]
    split
    · exact ⟨.nil rfl fine, fun _ h => absurd h List.not_mem_nil⟩
    · have hidle := idle.of_keeps (step.keeps_run (Engine.steady_ofAgenda agenda) session)
      dsimp only
      rw [List.flatMap_cons]
      generalize (step.run (.ofAgenda agenda) session).1 = after at hstep hidle ⊢
      by_cases hfailure : after.watcher.failure = none
      · obtain ⟨hrest, hlast⟩ := ih (fun step hm => single step (.tail _ hm)) hidle hfailure
        refine ⟨hstep.append hfailure hrest, fun turn hm => ?_⟩
        cases hturns : turns (.ofAgenda agenda) rest after with
        | nil =>
          rw [hturns] at hm
          exact absurd hm List.not_mem_nil
        | cons next others =>
          rw [hturns] at hm hlast
          rw [List.dropLast_cons_cons] at hm
          rcases List.mem_cons.1 hm with rfl | hm
          · exact hstep.ok hfailure
          · exact hlast turn hm
      · obtain ⟨hrun, hturns⟩ := runScript_of_stopped (.ofAgenda agenda) rest
          (hstep.stopped hfailure)
        rw [hrun, hturns, List.flatMap_nil, List.append_nil]
        exact ⟨hstep, fun _ h => absurd h List.not_mem_nil⟩

/-- A script that does not start the session keeps the order of the calls about the observer. -/
theorem lives_runScript {first : List ObserverCall} (free : agenda.startFree = true)
    (single : ∀ step ∈ script, step.isSingle = true) (h : session.watcher.Lives first) :
    (runScript (.ofAgenda agenda) script session).1.watcher.Lives first := by
  have hstep : ∀ operation : Operation, operation.ofStep = true →
      operation.followsStart = true := by
    intro operation h
    cases operation <;> first | rfl | cases h
  have hrebuild : ∀ operation : Operation, operation.ofRebuild = true →
      operation.followsStart = true := by
    intro operation h
    cases operation <;> first | rfl | cases h
  have he : (Engine.ofAgenda agenda).Within Operation.followsStart :=
    Engine.within_ofAgenda hrebuild (Agenda.within_of_startFree hstep free)
  have hscript : scriptWithin Operation.followsStart script = true :=
    scriptWithin_of_startFree hstep script (startFreeScript_of_isSingle single)
  exact (does_runScript he script session hscript).goes.keeps
    (fun hop hmay h => h.operates hop hmay) h

/-! ## The watch -/

/-- How a watch ends that was started with the bundle and in which the steps of the turns were run:
with which session, with which results of the steps, and with an error or not. -/
structure Lifecycle (agenda : Agenda) (script : List Step) (bundle : Bundle) (started : Session)
    (turns : List Turn) (ended : Session × List Outcome × Except Error Unit) : Prop where
  /-- The observer was started when it had been asked for the directories of the first modules. -/
  scheduled : ∃ earlier later, ended.1.watcher.calls = earlier ++ .start :: later ∧
    ∀ path ∈ bundle.modules, .schedule path.parent ∈ earlier
  /-- It was started, stopped and joined once each, in this order. -/
  control_eq : ended.1.watcher.calls.filter (·.isControl) = [.start, .stop, .join]
  stopped : ended.1.watcher.stopped = true
  /-- The steps that were run are the first ones of the script. -/
  steps : turns.map (·.step) <+: script
  log_eq : ended.2.1 = turns.map (·.outcome (.ofAgenda agenda))
  tally : Tally agenda started (turns.flatMap (·.builds agenda)) ended.1
  /-- No step was run after one that led to a build that failed. -/
  last_turn : ∀ turn ∈ turns.dropLast, ∀ round ∈ turn.builds agenda, ∀ error,
    round.result ≠ .error error
  /-- The watch ends with the error of the build that failed, and without one if none failed. -/
  error_iff : ∀ error, ended.2.2 = .error error ↔
    ∃ round ∈ turns.flatMap (·.builds agenda), round.result = .error error

variable {started : Session} {bundle : Bundle} {engine : Engine}

/-- Once the session is started, a watch runs its script and stops the session. -/
theorem watch_eq (script : List Step) (h : session.start engine = (started, .ok bundle)) :
    ∃ host, session.watch engine script =
      let ran := runScript engine script started.announce
      ({ ran.1.stop with host }, ran.2.2,
        if ran.2.1 then .ok ()
        else match ran.1.watcher.failure with
          | some error => .error error
          | none => .ok ()) := by
  unfold watch
  rw [h]
  dsimp only
  obtain ⟨final, interrupted, log⟩ := runScript engine script started.announce
  cases interrupted with
  | true => exact ⟨_, rfl⟩
  | false =>
    refine ⟨final.host, ?_⟩
    cases hfailure : final.watcher.failure <;> simp [hfailure, stop]

/-- A watch that was started ends so. -/
theorem lifecycle_of_start (h : session.start (.ofAgenda agenda) = (started, .ok bundle))
    (hwatcher : started.watcher = (({} : Watcher).sync bundle.modules).start)
    (free : agenda.startFree = true) (single : ∀ step ∈ script, step.isSingle = true) :
    Lifecycle agenda script bundle started (turns (.ofAgenda agenda) script started.announce)
      (session.watch (.ofAgenda agenda) script) := by
  obtain ⟨_, _, _, hsync⟩ := Watcher.onTable_sync {} bundle.modules
  have hannounce : started.announce.watcher = (({} : Watcher).sync bundle.modules).start := hwatcher
  have hnone : started.announce.watcher.failure = none := by
    rw [hannounce, hsync]
    rfl
  have hlives : started.announce.watcher.Lives (({} : Watcher).sync bundle.modules).calls :=
    hannounce ▸ Watcher.lives_start bundle.modules
  obtain ⟨htally, hlast⟩ := tally_script free single (.of_start hannounce) hnone
  have hlog := log_runScript (.ofAgenda agenda) script started.announce
  have hused := stopped_of_interrupted (.ofAgenda agenda) script started.announce
  obtain ⟨⟨⟨later, hcalls⟩, hcontrol, hstopped⟩, hjoined⟩ :=
    (lives_runScript free single hlives).stop
  rw [hjoined] at hcontrol
  obtain ⟨host, hwatch⟩ := watch_eq script h
  rw [hwatch]
  generalize runScript (.ofAgenda agenda) script started.announce = ran at *
  refine ⟨⟨_, later, hcalls, fun path hm => ?_⟩, hcontrol, hstopped hjoined,
    steps_turns _ _ _, hlog, { htally.stop with }, hlast, fun error => ?_⟩
  · exact (Watcher.mirrors_new.sync bundle.modules).schedule_mem_calls (Watcher.mem_paths_sync.2 hm)
  · rw [← htally.failure_iff]
    dsimp only
    split
    · next hinterrupted =>
      -- A session that has failed is stopped, so its script is not used up.
      have hfine : ran.1.watcher.failure = none := by
        by_contra hfailed
        exact Bool.noConfusion ((hused hinterrupted).symm.trans (htally.stopped hfailed))
      rw [hfine]
      exact ⟨fun h => (nomatch h), fun h => nomatch h⟩
    · split
      · next found hfound =>
        rw [hfound]
        exact ⟨fun h => by cases h; rfl, fun h => by cases h; rfl⟩
      · next hfine =>
        rw [hfine]
        exact ⟨fun h => (nomatch h), fun h => nomatch h⟩

/-- If the first build of a session fails, its watch ends with the same error, and the observer is
asked for nothing. If that build succeeds, the watch ends as `Lifecycle` tells, whatever single steps
happen while it waits, and whatever but a start happens amid rebuilds. -/
theorem watch_lifecycle (new : session.watcher = {})
    (quiet : ∀ company ∈ agenda, company.number ≠ session.builds + 1)
    (free : agenda.startFree = true) (single : ∀ step ∈ script, step.isSingle = true) :
    (∀ host error, session.host.build session.config = (host, .error error) →
      ∃ failed, session.watch (.ofAgenda agenda) script = (failed, [], .error error) ∧
        failed.watcher.calls = []) ∧
    ∀ host bundle, session.host.build session.config = (host, .ok bundle) →
      ∃ started, session.start (.ofAgenda agenda) = (started, .ok bundle) ∧
        Lifecycle agenda script bundle started
          (turns (.ofAgenda agenda) script started.announce)
          (session.watch (.ofAgenda agenda) script) := by
  rcases start_cases new quiet with
    ⟨_, found, failed, hbuild, hstart, hwatcher⟩ | ⟨_, found, started, hbuild, hstart, hwatcher⟩ <;>
    rw [hbuild]
  · refine ⟨fun host error h => ?_, fun _ _ h => nomatch h⟩
    cases h
    refine ⟨failed, ?_, ?_⟩
    · rw [watch, hstart]
    · rw [hwatcher]
  · refine ⟨fun _ _ h => (nomatch h), fun host bundle h => ?_⟩
    cases h
    exact ⟨started, hstart, lifecycle_of_start hstart hwatcher free single⟩

/-- The module `b` of the pair changes, and then it is deleted. -/
def deletingScript : List Step :=
  [.edit (.write "b.js" "var b = 2;".toUTF8), .notify "b.js", .edit (.delete "b.js"),
    .notify "b.js", .notify "a.js"]

/-- The watch ends with the error of the build that misses the module, and the last step of the
script is not run. -/
theorem watch_lifecycle_deleting :
    (ofPair.watch (.ofAgenda []) deletingScript).2.2 =
      .error (.moduleNotFound "/w/b.js" "/w/a.js") ∧
    Lifecycle [] deletingScript ⟨"/w/a.js", "var b = 1;", ["/w/b.js", "/w/a.js"]⟩ ofPairStarted
      (turns (.ofAgenda []) deletingScript ofPairStarted.announce)
      (ofPair.watch (.ofAgenda []) deletingScript) ∧
    (turns (.ofAgenda []) deletingScript ofPairStarted.announce).length = 4 := by
  have hbuild : ofPair.host.build ofPair.config = ((ofPair.host.build ofPair.config).1,
      .ok ⟨"/w/a.js", "var b = 1;", ["/w/b.js", "/w/a.js"]⟩) := Prod.ext rfl (by decide +kernel)
  have hsingle : ∀ step ∈ deletingScript, step.isSingle = true := by decide
  have hquiet : ∀ company ∈ ([] : Agenda), company.number ≠ ofPair.builds + 1 :=
    fun _ h => absurd h List.not_mem_nil
  obtain ⟨started, hstart, hlife⟩ := (watch_lifecycle rfl hquiet rfl hsingle).2 _ _ hbuild
  have hstarted : started = ofPairStarted := (congrArg Prod.fst hstart).symm
  exact ⟨by decide +kernel, hstarted ▸ hlife, by decide +kernel⟩

end Session

end Bundler
