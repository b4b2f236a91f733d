import Bundler.Proofs.Amid

/-!
# Rebuilds

A rebuild runs its builds one after another: one at once, and one more after every build that
succeeds and during which another rebuild was asked for, however often (`Session.Rounds`). What
follows from that for the session is collected in `Session.Serial`: no other build begins meanwhile,
in the end neither flag is set, the builds that succeeded are counted, and one that failed is the
last. `Session.rebuild_serial` says that this is what a rebuild does between two steps, as long as
no step that accompanies its builds starts the session.
-/

namespace Bundler

/-- No company of the agenda starts the session. -/
def Agenda.startFree (agenda : Agenda) : Bool :=
  agenda.all fun company => startFreeScript company.before && startFreeScript company.after

/-- The company of the build of the number, which may be none. -/
def Agenda.company (number : Nat) : Agenda → Company
  | [] => { number }
  | first :: rest =>
    if number < first.number then { number }
    else if number = first.number then first
    else company number rest

namespace Session

variable {session after final : Session} {agenda : Agenda} {result : Except Error Bundle}

/-- How often a rebuild is asked for while the next build of the session runs. -/
def arrivals (agenda : Agenda) (session : Session) : Nat :=
  let company := agenda.company (session.builds + 1)
  session.triggersAmid company.before company.after

/-- What holds of all company, and of a build without any, holds of the company of a build. -/
theorem company_of_all {p : Company → Bool} (h : agenda.all p = true) (number : Nat)
    (none : p { number } = true) : p (agenda.company number) = true := by
  induction agenda with
  | nil => exact none
  | cons first rest ih =>
    obtain ⟨hfirst, hrest⟩ := Bool.and_eq_true_iff.1 h
    unfold Agenda.company
    split
    · exact none
    · split
      · exact hfirst
      · exact ih hrest

theorem startFree_company (free : agenda.startFree = true) (number : Nat) :
    startFreeScript (agenda.company number).before = true ∧
      startFreeScript (agenda.company number).after = true :=
  Bool.and_eq_true_iff.1 (company_of_all free number rfl)

/-- The number of a build tells whether it has the first company, one of the others, or none. -/
theorem build_cons (first : Company) (rest : Agenda) (session : Session) :
    (Engine.ofAgenda (first :: rest)).build session =
      if session.builds + 1 < first.number then session.build
      else if session.builds + 1 = first.number then
        session.buildAmid (.ofAgenda rest) first.before first.after
      else (Engine.ofAgenda rest).build session := rfl

/-- Amid a rebuild, the engine of an agenda builds with the company of the number of the build. -/
theorem build_ofAgenda (free : agenda.startFree = true) (h : session.watcher.rebuilding = true) :
    (Engine.ofAgenda agenda).build session =
      session.buildAmid (.ofAgenda []) (agenda.company (session.builds + 1)).before
        (agenda.company (session.builds + 1)).after := by
  induction agenda with
  | nil => exact build_eq_buildAmid _ _
  | cons first rest ih =>
    obtain ⟨hfirst, hrest⟩ := Bool.and_eq_true_iff.1 free
    obtain ⟨hb, ha⟩ := Bool.and_eq_true_iff.1 hfirst
    rw [build_cons, Agenda.company]
    split
    · exact build_eq_buildAmid _ _
    · split
      · exact (buildAmid_amid _ session hb ha h).1
      · exact ih hrest

/-- A build amid a rebuild is one more, and it leaves another one queued if it was asked for. -/
theorem amid_of_build (free : agenda.startFree = true) (h : session.watcher.rebuilding = true)
    (hb : (Engine.ofAgenda agenda).build session = (after, result)) :
    ({ session with builds := session.builds + 1 }).Amid after (session.arrivals agenda) := by
  obtain ⟨hbefore, hafter⟩ := startFree_company free (session.builds + 1)
  have hamid := (buildAmid_amid (.ofAgenda []) session hbefore hafter h).2
  rw [← build_ofAgenda free h, hb] at hamid
  exact hamid

/-- If it succeeds, it is counted, and the rest of what it leads to is about the table at most. -/
theorem amid_of_build_ok (free : agenda.startFree = true) (h : session.watcher.rebuilding = true)
    {bundle : Bundle} (hb : (Engine.ofAgenda agenda).build session = (after, .ok bundle)) :
    ({ session with
      builds := session.builds + 1, watcher := session.watcher.count }).Amid
      (after.succeed bundle) (session.arrivals agenda) := by
  have hamid := amid_of_build free h hb
  obtain ⟨_, _, _, hsucceed⟩ := onTable_succeed after bundle
  refine ⟨builds_succeed.trans hamid.builds_eq, ?_, ?_, ?_⟩ <;> rw [hsucceed]
  · exact congrArg (· + 1) hamid.count_eq
  · exact hamid.rebuilding
  · exact hamid.pending_eq

/-- A build of a rebuild: the session before and after it, and what came out. -/
structure Round where
  before : Session
  after : Session
  result : Except Error Bundle

/-- The builds of a rebuild from a session on, and the session at the end. Another build follows one
that succeeds if a rebuild was asked for while that was running. -/
inductive Rounds (agenda : Agenda) : Session → List Round → Session → Prop where
  | failed {session after : Session} {error : Error}
      (build : (Engine.ofAgenda agenda).build session = (after, .error error)) :
      Rounds agenda session [⟨session, after, .error error⟩]
        { after with watcher := after.watcher.fail error }
  | last {session after : Session} {bundle : Bundle}
      (build : (Engine.ofAgenda agenda).build session = (after, .ok bundle))
      (quiet : session.arrivals agenda = 0) :
      Rounds agenda session [⟨session, after, .ok bundle⟩]
        { after.succeed bundle with watcher := (after.succeed bundle).watcher.settle }
  | again {session after final : Session} {bundle : Bundle} {rounds : List Round}
      (build : (Engine.ofAgenda agenda).build session = (after, .ok bundle))
      (asked : 0 < session.arrivals agenda)
      (rest : Rounds agenda
        { after.succeed bundle with watcher := (after.succeed bundle).watcher.dequeue } rounds
        final) :
      Rounds agenda session (⟨session, after, .ok bundle⟩ :: rounds) final

/-- Behind the number of its first company, an agenda goes on with the others. -/
theorem Rounds.later {first : Company} {rest : Agenda} {rounds : List Round}
    (h : Rounds rest session rounds final) (free : Agenda.startFree rest = true)
    (hr : session.watcher.rebuilding = true) (hle : first.number ≤ session.builds) :
    Rounds (first :: rest) session rounds final := by
  have hbuild : ∀ {session : Session}, first.number ≤ session.builds →
      (Engine.ofAgenda (first :: rest)).build session = (Engine.ofAgenda rest).build session ∧
        session.arrivals (first :: rest) = session.arrivals rest := by
    intro session hle
    have hlt : ¬ session.builds + 1 < first.number := by omega
    have hne : ¬ session.builds + 1 = first.number := by omega
    rw [build_cons, arrivals, arrivals, Agenda.company, if_neg hlt, if_neg hne, if_neg hlt,
      if_neg hne]
    exact ⟨rfl, rfl⟩
  induction h with
  | failed build => exact .failed ((hbuild hle).1.trans build)
  | last build quiet => exact .last ((hbuild hle).1.trans build) ((hbuild hle).2.trans quiet)
  | again build asked _ ih =>
    have hamid := amid_of_build_ok free hr build
    refine .again ((hbuild hle).1.trans build) ((hbuild hle).2 ▸ asked) (ih hamid.rebuilding ?_)
    exact hamid.builds_eq ▸ Nat.le_succ_of_le hle

/-- Nothing is asked for by no company. -/
theorem triggersAmid_nil (session : Session) : session.triggersAmid [] [] = 0 := by
  unfold triggersAmid
  dsimp only [asideTriggers]
  split <;> rfl

/-- The builds of a rebuild, if those are known that follow the first one. -/
def trace (build : Session → Session × Except Error Bundle) (again : Session → List Round)
    (session : Session) : List Round :=
  match build session with
  | (after, .error error) => [⟨session, after, .error error⟩]
  | (after, .ok bundle) =>
    let next := after.succeed bundle
    ⟨session, after, .ok bundle⟩ ::
      if next.watcher.pending then again { next with watcher := next.watcher.dequeue } else []

/-- A rebuild runs in rounds if it does so after its first build. -/
theorem rounds_trace (list : Session → List Round) (again : Session → Session)
    (free : agenda.startFree = true) (hr : session.watcher.rebuilding = true)
    (hp : session.watcher.pending = false)
    (ha : 0 < session.arrivals agenda → ∀ next : Session, next.builds = session.builds + 1 →
      next.watcher.rebuilding = true → next.watcher.pending = false →
      Rounds agenda next (list next) (again next)) :
    Rounds agenda session (trace (Engine.ofAgenda agenda).build list session)
      (Session.rounds (Engine.ofAgenda agenda).build again session) := by
  unfold rounds trace
  cases hb : (Engine.ofAgenda agenda).build session with
  | mk after result =>
    cases result with
    | error error => exact .failed hb
    | ok bundle =>
      have hamid := amid_of_build_ok free hr hb
      have hqueued : (after.succeed bundle).watcher.pending = decide (0 < session.arrivals agenda) :=
        hamid.pending_eq.trans (congrArg (· || _) hp)
      dsimp only
      rw [hqueued]
      by_cases hasked : 0 < session.arrivals agenda
      · rw [if_pos (decide_eq_true hasked), if_pos (decide_eq_true hasked)]
        exact .again hb hasked (ha hasked
          { after.succeed bundle with watcher := (after.succeed bundle).watcher.dequeue }
          hamid.builds_eq hamid.rebuilding rfl)
      · rw [if_neg (by simpa using hasked), if_neg (by simpa using hasked)]
        exact .last hb (Nat.eq_zero_of_not_pos hasked)

end Session

/-- The builds of a rebuild, from the first one on. -/
def Agenda.rounds : Agenda → Session → List Session.Round
  | [] => Session.trace (Engine.ofAgenda []).build fun _ => []
  | company :: rest =>
    Session.trace (Engine.ofAgenda (company :: rest)).build (Agenda.rounds rest)

namespace Session

variable {session after final : Session} {agenda : Agenda}

/-- A rebuild amid which the session is not started runs in rounds. -/
theorem rounds_ofAgenda (free : agenda.startFree = true) (hr : session.watcher.rebuilding = true)
    (hp : session.watcher.pending = false) :
    Rounds agenda session (agenda.rounds session) ((Engine.ofAgenda agenda).rounds session) := by
  induction agenda generalizing session with
  | nil =>
    have hnone : session.arrivals [] = 0 := triggersAmid_nil session
    exact rounds_trace (fun _ => [])
      (fun session => { session with watcher := session.watcher.settle }) free hr hp
      fun hasked => absurd hasked (by omega)
  | cons first rest ih =>
    have hrest : Agenda.startFree rest = true := (Bool.and_eq_true_iff.1 free).2
    refine rounds_trace (Agenda.rounds rest) (Engine.ofAgenda rest).rounds free hr hp
      fun hasked next hbuilds hr hp => ?_
    refine (ih hrest hr hp).later hrest hr (Nat.le_of_not_lt fun hlt => ?_)
    -- A build before the number of the first company has none, so that nothing was asked for.
    rw [arrivals, Agenda.company, if_pos (by omega), triggersAmid_nil] at hasked
    exact Nat.lt_irrefl 0 hasked

/-- Another build has to follow: this one succeeded, and a rebuild was asked for while it ran. -/
def Round.GoesOn (agenda : Agenda) (round : Round) : Prop :=
  (∃ bundle, round.result = .ok bundle) ∧ 0 < round.before.arrivals agenda

/-- How the builds of a rebuild follow each other, and what the rebuild leaves behind. -/
structure Serial (agenda : Agenda) (session : Session) (rounds : List Round) (final : Session) :
    Prop where
  /-- The first build begins at once. -/
  first : ∃ round rest, rounds = round :: rest ∧
    round.before = { session with watcher := session.watcher.begin }
  /-- The rounds are builds of the session. -/
  build : ∀ round ∈ rounds,
    (Engine.ofAgenda agenda).build round.before = (round.after, round.result)
  /-- Each of them has its company, which would do the same with any other engine. -/
  company : ∀ round ∈ rounds, round.before.buildAmid (.ofAgenda [])
    (agenda.company (round.before.builds + 1)).before
    (agenda.company (round.before.builds + 1)).after = (round.after, round.result)
  /-- No other build begins while one of them runs. -/
  alone : ∀ round ∈ rounds, round.after.builds = round.before.builds + 1
  /-- One more build follows exactly if the build succeeded and at least one rebuild was asked for
  meanwhile. -/
  goesOn : ∀ i (hi : i < rounds.length), i + 1 < rounds.length ↔ rounds[i].GoesOn agenda
  /-- It begins when the build before it has ended and its modules are subscribed. -/
  next : ∀ i (hi : i + 1 < rounds.length), ∃ bundle, rounds[i].result = .ok bundle ∧
    rounds[i + 1].before = { rounds[i].after.succeed bundle with
      watcher := (rounds[i].after.succeed bundle).watcher.dequeue }
  /-- There are no other builds. -/
  builds_eq : final.builds = session.builds + rounds.length
  idle : final.watcher.rebuilding = false
  empty : final.watcher.pending = false
  /-- The builds that succeeded are counted. -/
  count_eq : final.watcher.rebuildCount =
    session.watcher.rebuildCount + rounds.countP fun round => round.result.isOk
  /-- A build that failed is the last one, and ends the session. -/
  failed : ∀ i (hi : i < rounds.length) error, rounds[i].result = .error error →
    i + 1 = rounds.length ∧ final.watcher.failure = some error ∧ final.watcher.stopped = true

variable {rounds : List Round}

theorem Rounds.exists_head (h : Rounds agenda session rounds final) :
    ∃ round rest, rounds = round :: rest ∧ round.before = session := by
  cases h <;> exact ⟨_, _, rfl, rfl⟩

/-- Every round is a build amid the rebuild, before which nothing is queued. -/
theorem Rounds.build_eq (h : Rounds agenda session rounds final) (free : agenda.startFree = true)
    (hr : session.watcher.rebuilding = true) : ∀ round ∈ rounds,
      (Engine.ofAgenda agenda).build round.before = (round.after, round.result) ∧
        round.before.watcher.rebuilding = true := by
  induction h with
  | failed build | last build =>
    intro round hm
    rw [List.mem_singleton.1 hm]
    exact ⟨build, hr⟩
  | again build _ _ ih =>
    intro round hm
    rcases List.mem_cons.1 hm with rfl | hm
    · exact ⟨build, hr⟩
    · exact ih (amid_of_build_ok free hr build).rebuilding round hm

theorem Rounds.goesOn_iff (h : Rounds agenda session rounds final) (i : Nat)
    (hi : i < rounds.length) : i + 1 < rounds.length ↔ rounds[i].GoesOn agenda := by
  induction h generalizing i with
  | failed =>
    obtain rfl : i = 0 := by simpa using hi
    exact ⟨fun h => absurd h (by simp), fun ⟨⟨_, hok⟩, _⟩ => nomatch hok⟩
  | last _ quiet =>
    obtain rfl : i = 0 := by simpa using hi
    exact ⟨fun h => absurd h (by simp), fun ⟨_, hasked⟩ => absurd quiet (Nat.ne_of_gt hasked)⟩
  | again _ asked rest ih =>
    obtain ⟨_, _, rfl, -⟩ := rest.exists_head
    cases i with
    | zero => exact ⟨fun _ => ⟨⟨_, rfl⟩, asked⟩, fun _ => by simp⟩
    | succ i => simpa using ih i (by simpa using hi)

theorem Rounds.next (h : Rounds agenda session rounds final) (i : Nat)
    (hi : i + 1 < rounds.length) : ∃ bundle, rounds[i].result = .ok bundle ∧
      rounds[i + 1].before = { rounds[i].after.succeed bundle with
        watcher := (rounds[i].after.succeed bundle).watcher.dequeue } := by
  induction h generalizing i with
  | failed | last => simp at hi
  | again _ _ rest ih =>
    cases i with
    | zero =>
      obtain ⟨_, _, rfl, hbefore⟩ := rest.exists_head
      exact ⟨_, rfl, hbefore⟩
    | succ i => simpa using ih i (by simpa using hi)

/-- The builds are counted, and so are those that succeed. -/
theorem Rounds.counted (h : Rounds agenda session rounds final) (free : agenda.startFree = true)
    (hr : session.watcher.rebuilding = true) : final.builds = session.builds + rounds.length ∧
      final.watcher.rebuildCount =
        session.watcher.rebuildCount + rounds.countP fun round => round.result.isOk := by
  induction h with
  | failed build =>
    have hamid := amid_of_build free hr build
    exact ⟨hamid.builds_eq, hamid.count_eq⟩
  | last build =>
    have hamid := amid_of_build_ok free hr build
    exact ⟨hamid.builds_eq, hamid.count_eq⟩
  | again build _ _ ih =>
    have hamid := amid_of_build_ok free hr build
    obtain ⟨hlater, hsum⟩ := ih hamid.rebuilding
    dsimp only [Watcher.dequeue] at hlater hsum
    rw [hlater, hsum, hamid.builds_eq, hamid.count_eq, List.countP_cons_of_pos rfl, List.length_cons]
    dsimp only [Watcher.count]
    exact ⟨by omega, by omega⟩

/-- No flag is set in the end, and a build that failed is the last one. -/
theorem Rounds.ended (h : Rounds agenda session rounds final) (free : agenda.startFree = true)
    (hr : session.watcher.rebuilding = true) (hp : session.watcher.pending = false) :
    final.watcher.rebuilding = false ∧ final.watcher.pending = false ∧
      ∀ i (hi : i < rounds.length) error, rounds[i].result = .error error →
        i + 1 = rounds.length ∧ final.watcher.failure = some error ∧
          final.watcher.stopped = true := by
  induction h with
  | failed =>
    refine ⟨rfl, rfl, fun i hi error he => ?_⟩
    obtain rfl : i = 0 := by simpa using hi
    cases he
    exact ⟨rfl, rfl, rfl⟩
  | last build quiet =>
    refine ⟨rfl, ?_, fun i hi error he => ?_⟩
    · refine (amid_of_build_ok free hr build).pending_eq.trans ?_
      rw [quiet]
      exact (Bool.or_false _).trans hp
    · obtain rfl : i = 0 := by simpa using hi
      cases he
  | again build _ _ ih =>
    obtain ⟨hidle, hempty, hfailed⟩ := ih (amid_of_build_ok free hr build).rebuilding rfl
    refine ⟨hidle, hempty, fun i hi error he => ?_⟩
    cases i with
    | zero => cases he
    | succ i => simpa using hfailed i (by simpa using hi) error he

/-- The builds of a rebuild that begins between two steps, and that does not start the session. -/
theorem rounds_of_idle (free : agenda.startFree = true)
    (idle : session.watcher.rebuilding = false) (empty : session.watcher.pending = false) :
    Rounds agenda { session with watcher := session.watcher.begin }
      (agenda.rounds { session with watcher := session.watcher.begin })
      (session.rebuild (.ofAgenda agenda)) := by
  have hrebuild : session.rebuild (.ofAgenda agenda) =
      (Engine.ofAgenda agenda).rounds { session with watcher := session.watcher.begin } := by
    rw [rebuild, if_neg (by simp [idle])]
  rw [hrebuild]
  exact rounds_ofAgenda free rfl empty

theorem exists_rounds_of_idle (free : agenda.startFree = true)
    (idle : session.watcher.rebuilding = false) (empty : session.watcher.pending = false) :
    ∃ rounds, Rounds agenda { session with watcher := session.watcher.begin } rounds
      (session.rebuild (.ofAgenda agenda)) :=
  ⟨_, rounds_of_idle free idle empty⟩

/-- These builds follow one another. -/
theorem Rounds.serial
    (h : Rounds agenda { session with watcher := session.watcher.begin } rounds final)
    (free : agenda.startFree = true) (empty : session.watcher.pending = false) :
    Serial agenda session rounds final := by
  obtain ⟨hbuilds, hcount⟩ := h.counted free rfl
  obtain ⟨hidle, hempty, hfailed⟩ := h.ended free rfl empty
  exact {
    first := h.exists_head
    build := fun round hm => (h.build_eq free rfl round hm).1
    company := fun round hm => by
      obtain ⟨hbuild, hr⟩ := h.build_eq free rfl round hm
      rw [← build_ofAgenda free hr]
      exact hbuild
    alone := fun round hm => by
      obtain ⟨hbuild, hr⟩ := h.build_eq free rfl round hm
      exact (amid_of_build free hr hbuild).builds_eq
    goesOn := h.goesOn_iff
    next := h.next
    builds_eq := hbuilds
    idle := hidle
    empty := hempty
    count_eq := hcount
    failed := hfailed }

/-- Between two steps, a rebuild amid which the session is not started runs its builds one after
another, as often as it is asked for. -/
theorem rebuild_serial (free : agenda.startFree = true) (h : session.watcher.Reachable) :
    ∃ rounds, Serial agenda session rounds (session.rebuild (.ofAgenda agenda)) := by
  obtain ⟨hidle, hempty⟩ := h.idle
  obtain ⟨rounds, hrounds⟩ := exists_rounds_of_idle free hidle hempty
  exact ⟨rounds, hrounds.serial free hempty⟩

/-- While the second build of a session runs, its module `b` is changed twice, and both times the
session is notified. -/
def twoChanges : Agenda :=
  [{ number := 2
     before := [.edit (.write "b.js" "var b = 2;".toUTF8), .notify "b.js"]
     after := [.edit (.write "b.js" "var b = 3;".toUTF8), .notify "b.js"] }]

theorem startFree_twoChanges : twoChanges.startFree = true := by decide

theorem reachable_ofPairStarted : ofPairStarted.watcher.Reachable :=
  Watcher.Reachable.run (.new : Watcher.Reachable ofPair.watcher) [] .start

/-- Of the two changes comes one build more. -/
theorem rebuild_serial_twoChanges : ∃ rounds, rounds.length = 2 ∧
    Serial twoChanges ofPairStarted rounds (ofPairStarted.rebuild (.ofAgenda twoChanges)) := by
  obtain ⟨rounds, hserial⟩ := rebuild_serial startFree_twoChanges reachable_ofPairStarted
  have hbuilds : (ofPairStarted.rebuild (.ofAgenda twoChanges)).builds =
      ofPairStarted.builds + 2 := by decide +kernel
  exact ⟨rounds, by have := hserial.builds_eq; omega, hserial⟩

end Session

end Bundler
