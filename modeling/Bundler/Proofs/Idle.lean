import Bundler.Proofs.Watching

/-!
# Between rebuilds

Between two steps no rebuild is running, and none is queued (`Watcher.Reachable.idle`). This also
holds amid the build of a start, where steps meet the session as between two steps. Each step leaves
the flag as it is that tells whether a rebuild is running, and queues nothing unless one is
(`Watcher.Keeps`), whatever it does to the rest and whatever accompanies the builds that it starts.
-/

namespace Bundler

namespace Watcher

variable {watcher other third : Watcher}

/-- The other watcher is in a rebuild exactly if this one is, and has nothing queued outside of a
rebuild unless this one has. -/
structure Keeps (watcher other : Watcher) : Prop where
  rebuilding_eq : other.rebuilding = watcher.rebuilding
  idle : watcher.rebuilding = false → watcher.pending = false → other.pending = false

theorem Keeps.refl (watcher : Watcher) : watcher.Keeps watcher :=
  ⟨rfl, fun _ h => h⟩

theorem Keeps.trans (h : watcher.Keeps other) (h' : other.Keeps third) : watcher.Keeps third :=
  ⟨h'.rebuilding_eq.trans h.rebuilding_eq, fun hr hp =>
    h'.idle (h.rebuilding_eq.trans hr) (h.idle hr hp)⟩

/-- Work on the table is about neither flag. -/
theorem OnTable.keeps (h : watcher.OnTable other) : watcher.Keeps other := by
  obtain ⟨_, _, _, rfl⟩ := h
  exact ⟨rfl, fun _ hp => hp⟩

theorem keeps_stop (watcher : Watcher) : watcher.Keeps watcher.stop := by
  obtain ⟨_, _, hstop⟩ := watcher.exists_stop_eq
  rw [hstop]
  exact ⟨rfl, fun _ h => h⟩

end Watcher

/-- A build leaves the flags as steps do, and a rebuild ends with none. -/
structure Engine.Steady (engine : Engine) : Prop where
  build : ∀ session : Session, session.watcher.Keeps (engine.build session).1.watcher
  rounds : ∀ session : Session, session.watcher.rebuilding = true →
    (engine.rounds session).watcher.rebuilding = false ∧
      (engine.rounds session).watcher.pending = false

namespace Session

variable {engine : Engine}

theorem keeps_rebuild (he : engine.Steady) (session : Session) :
    session.watcher.Keeps (session.rebuild engine).watcher := by
  unfold rebuild
  split
  · next hr => exact ⟨rfl, fun hidle => Bool.noConfusion (hr.symm.trans hidle)⟩
  · next hr =>
    obtain ⟨hidle, hempty⟩ := he.rounds { session with watcher := session.watcher.begin } rfl
    exact ⟨hidle.trans (Bool.eq_false_iff.2 hr).symm, fun _ _ => hempty⟩

theorem keeps_notify (he : engine.Steady) (path : Path) (session : Session) :
    session.watcher.Keeps (session.notify engine path).1.watcher := by
  unfold notify
  dsimp only
  split
  · exact keeps_rebuild he { session with host := session.host.info _ }
  · exact .refl _

theorem keeps_dispatch (he : engine.Steady) (event : FileEvent) (session : Session) :
    session.watcher.Keeps (session.dispatch engine event).1.watcher := by
  unfold dispatch
  split
  · split
    · exact keeps_notify he _ session
    · exact .refl _
  · exact .refl _

theorem keeps_start (he : engine.Steady) (session : Session) :
    session.watcher.Keeps (session.start engine).1.watcher := by
  have hbuild := he.build session
  unfold start
  split
  · next hb => rwa [hb] at hbuild
  · next after bundle hb =>
    rw [hb] at hbuild
    have hsync := (Watcher.onTable_sync after.watcher bundle.modules).keeps
    exact (hbuild.trans hsync).trans ⟨rfl, fun _ h => h⟩

end Session

mutual

/-- No step changes whether a rebuild is running, and none queues anything else. -/
theorem Step.keeps_run {engine : Engine} (he : engine.Steady) :
    ∀ (step : Step) (session : Session), session.watcher.Keeps (step.run engine session).1.watcher
  | .edit _, session => .refl session.watcher
  | .start, session => session.keeps_start he
  | .rebuild, session => session.keeps_rebuild he
  | .stop, session => Watcher.keeps_stop _
  | .notify path, session => session.keeps_notify he path
  | .sync paths, session => (Watcher.onTable_sync _ paths).keeps
  | .event event, session => session.keeps_dispatch he event
  | .cancel path, session => by
    have hrun : ((Step.cancel path).run engine session).1 = (session.cancel path).1 := rfl
    rw [hrun, Session.cancel]
    split <;> exact ⟨rfl, fun _ h => h⟩
  | .wait script, session => by
    rw [Step.run]
    exact (keeps_runScript he script session).trans (Watcher.keeps_stop _)

/-- So do all steps of a script. -/
theorem keeps_runScript {engine : Engine} (he : engine.Steady) :
    ∀ (script : List Step) (session : Session),
      session.watcher.Keeps (runScript engine script session).1.watcher
  | [], _ => .refl _
  | step :: rest, session => by
    rw [runScript]
    split
    · exact .refl _
    · exact (step.keeps_run he session).trans (keeps_runScript he rest _)

end

namespace Session

variable {engine : Engine}

theorem keeps_runAside (he : engine.Steady) (steps : List Step) (session : Session) :
    session.watcher.Keeps (runAside engine steps session).watcher := by
  induction steps generalizing session with
  | nil => exact .refl _
  | cons step rest ih =>
    have hstep := step.keeps_run he session
    rw [runAside]
    cases hrun : step.run engine session with
    | mk after outcome =>
      rw [hrun] at hstep
      exact hstep.trans (ih { after with aside := after.aside ++ [outcome] })

/-- A build with company: some of it, the build, and the rest if the build succeeds. -/
theorem buildAmid_cases (engine : Engine) (before after : List Step) (session : Session) :
    ∃ amid host, amid = runAside engine before { session with builds := session.builds + 1 } ∧
      ((∃ error, amid.host.build amid.config = (host, .error error) ∧
        session.buildAmid engine before after = ({ amid with host }, .error error)) ∨
      ∃ bundle, amid.host.build amid.config = (host, .ok bundle) ∧
        session.buildAmid engine before after =
          (runAside engine after { amid with host }, .ok bundle)) := by
  unfold buildAmid
  generalize runAside engine before { session with builds := session.builds + 1 } = amid
  dsimp only
  cases hb : amid.host.build amid.config with
  | mk host built =>
    refine ⟨amid, host, rfl, ?_⟩
    cases built with
    | error error => exact .inl ⟨error, hb, rfl⟩
    | ok bundle => exact .inr ⟨bundle, hb, rfl⟩

theorem keeps_buildAmid (he : engine.Steady) (before after : List Step) (session : Session) :
    session.watcher.Keeps (session.buildAmid engine before after).1.watcher := by
  have hbefore := keeps_runAside he before { session with builds := session.builds + 1 }
  obtain ⟨amid, host, hamid, ⟨_, -, hbuild⟩ | ⟨_, -, hbuild⟩⟩ :=
    buildAmid_cases engine before after session <;> rw [hbuild] <;> rw [← hamid] at hbefore
  · exact hbefore
  · exact hbefore.trans (keeps_runAside he after { amid with host })

/-- A rebuild ends with no flag set if its builds are steady, and those that are queued as well. -/
theorem rounds_idle {build : Session → Session × Except Error Bundle} {again : Session → Session}
    (hb : ∀ session : Session, session.watcher.Keeps (build session).1.watcher)
    (ha : ∀ session : Session, session.watcher.rebuilding = true →
      session.watcher.pending = false → (again session).watcher.rebuilding = false ∧
        (again session).watcher.pending = false)
    (session : Session) (hr : session.watcher.rebuilding = true) :
    (rounds build again session).watcher.rebuilding = false ∧
      (rounds build again session).watcher.pending = false := by
  have hkeeps := hb session
  unfold rounds
  split
  · exact ⟨rfl, rfl⟩
  · next after bundle hbuild =>
    rw [hbuild] at hkeeps
    obtain ⟨_, _, _, hsucceed⟩ := onTable_succeed after bundle
    dsimp only
    split
    · refine ha _ ?_ rfl
      change (after.succeed bundle).watcher.rebuilding = true
      rw [hsucceed]
      exact hkeeps.rebuilding_eq.trans hr
    · next hpending => exact ⟨rfl, Bool.eq_false_iff.2 hpending⟩

end Session

/-- The engine of every agenda is steady. -/
theorem Engine.steady_ofAgenda (agenda : Agenda) : (Engine.ofAgenda agenda).Steady := by
  induction agenda with
  | nil =>
    have hbuild : ∀ session : Session, session.watcher.Keeps session.build.1.watcher :=
      fun session => .refl _
    exact ⟨hbuild, Session.rounds_idle hbuild fun _ _ hp => ⟨rfl, hp⟩⟩
  | cons company rest ih =>
    have hbuild : ∀ session : Session, session.watcher.Keeps
        ((Engine.ofAgenda (company :: rest)).build session).1.watcher := by
      intro session
      rw [Engine.ofAgenda]
      dsimp only
      split
      · exact .refl _
      · split
        · exact session.keeps_buildAmid ih _ _
        · exact ih.build session
    exact ⟨hbuild, Session.rounds_idle hbuild fun session hr _ => ih.rounds session hr⟩

/-- The states that a watcher can be in between two steps: it is new, or a step of any kind was the
last one, whatever accompanied the builds that it led to. -/
inductive Watcher.Reachable : Watcher → Prop where
  | new : Reachable {}
  | run {session : Session} (reachable : Reachable session.watcher) (agenda : Agenda) (step : Step) :
      Reachable (step.run (.ofAgenda agenda) session).1.watcher

/-- Between two steps no rebuild is running, and none is queued. -/
theorem Watcher.Reachable.idle {watcher : Watcher} (h : watcher.Reachable) :
    watcher.rebuilding = false ∧ watcher.pending = false := by
  induction h with
  | new => exact ⟨rfl, rfl⟩
  | @run session _ agenda step ih =>
    have hkeeps := step.keeps_run (Engine.steady_ofAgenda agenda) session
    exact ⟨hkeeps.rebuilding_eq.trans ih.1, hkeeps.idle ih.1 ih.2⟩

end Bundler
