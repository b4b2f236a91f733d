import Bundler.Proofs.Bundle
import Bundler.Proofs.Location
import Mathlib.Data.Set.Card

/-!
# The course of a bundle

A bundle is made step by step: the innermost module in progress passes over the next of its imports,
enters it, or fails at it, and when none is left its text goes to the module around it. `Traversal`
is a bundle in the making, with all modules in progress and all paths at which a module was asked
for, and `Traversal.Step` has one rule for each of these steps. Nothing bounds the depth here.

* `Emission.run` and `Failure.run`: the rules of walks are runs of steps, so every bundle is made so
  (`Traversal.run_bundle`), and in no other way (`Traversal.Step.det`).
* `Traversal.Step.sound`: a module in progress is a file that no other one is, and a path that was
  asked for is in progress or inlined, so it is not asked for again.
* `Workspace.traversal_bounded`: so every run ends, asks for each path once at most, and never has
  more modules in progress than there are paths of files.
-/

namespace Bundler

/-- A module in progress, with the imports that are left and the texts of those that are inlined. -/
structure Frame where
  module : Module
  left : List Path
  nested : Inlined := []

/-- A bundle in the making: the modules in progress, the innermost first, and the paths at which a
module was asked for, in their order. -/
inductive Traversal where
  | running (resolver : Resolver) (frames : List Frame) (loads : List Path)
  | ended (loads : List Path) (result : Except Error Bundle)

namespace Traversal

/-- The paths at which a module was asked for so far. -/
def loads : Traversal → List Path
  | running _ _ loads => loads
  | ended loads _ => loads

/-- The modules in progress as the resolver has them. When the bundle is there, none is. -/
def inProgress : Traversal → List Path
  | running resolver _ _ => resolver.inProgress
  | ended _ _ => []

/-- The entry is asked for first. -/
def start (space : Workspace) (extension : String) (entry : Path) : Traversal :=
  match space.load extension none entry with
  | .error error => .ended [entry] (.error error)
  | .ok module =>
    .running (Resolver.enter {} entry) [{ module, left := module.dependencies }] [entry]

/-- One step to a bundle. -/
inductive Step (space : Workspace) (extension : String) : Traversal → Traversal → Prop
  /-- The next import is in progress. -/
  | cycle {resolver : Resolver} {module : Module} {path : Path} {left loads : List Path}
      {nested : Inlined} {outer : List Frame} : path ∈ resolver.inProgress →
      Step space extension (.running resolver (⟨module, path :: left, nested⟩ :: outer) loads)
        (.ended loads (.error (.circularImport (resolver.cycle path))))
  /-- The next import is inlined already. -/
  | skip {resolver : Resolver} {module : Module} {path : Path} {left loads : List Path}
      {nested : Inlined} {outer : List Frame} : path ∉ resolver.inProgress →
      path ∈ resolver.visited →
      Step space extension (.running resolver (⟨module, path :: left, nested⟩ :: outer) loads)
        (.running resolver (⟨module, left, nested⟩ :: outer) loads)
  /-- No module can be loaded from the next import. -/
  | unread {resolver : Resolver} {module : Module} {path : Path} {left loads : List Path}
      {nested : Inlined} {outer : List Frame} {error : Error} : path ∉ resolver.inProgress →
      path ∉ resolver.visited → space.load extension (some module.path) path = .error error →
      Step space extension (.running resolver (⟨module, path :: left, nested⟩ :: outer) loads)
        (.ended (loads ++ [path]) (.error error))
  /-- The next import is loaded and entered. -/
  | enter {resolver : Resolver} {module target : Module} {path : Path} {left loads : List Path}
      {nested : Inlined} {outer : List Frame} : path ∉ resolver.inProgress →
      path ∉ resolver.visited → space.load extension (some module.path) path = .ok target →
      Step space extension (.running resolver (⟨module, path :: left, nested⟩ :: outer) loads)
        (.running (resolver.enter path)
          (⟨target, target.dependencies, []⟩ :: ⟨module, left, nested⟩ :: outer) (loads ++ [path]))
  /-- All imports are inlined, and the text goes to the module that asked for it. -/
  | leave {resolver : Resolver} {module importer : Module} {left loads : List Path}
      {nested texts : Inlined} {outer : List Frame} :
      Step space extension
        (.running resolver (⟨module, [], nested⟩ :: ⟨importer, left, texts⟩ :: outer) loads)
        (.running (resolver.leave.record module.path)
          (⟨importer, left, texts ++ [(module.path, combine module.stripped nested)]⟩ :: outer)
          loads)
  /-- All imports of the entry are inlined, and its text is the text of the bundle. -/
  | finish {resolver : Resolver} {module : Module} {nested : Inlined} {loads : List Path} :
      Step space extension (.running resolver [⟨module, [], nested⟩] loads)
        (.ended loads (.ok ⟨module.path, combine module.stripped nested,
          resolver.leave.order ++ [module.path]⟩))

/-- Any number of steps. -/
abbrev Run (space : Workspace) (extension : String) : Traversal → Traversal → Prop :=
  Relation.ReflTransGen (Step space extension)

section
variable {space : Workspace} {extension : String} {first second third : Traversal}

/-- There is only one way to go on. -/
theorem Step.det (h : Step space extension first second) (h' : Step space extension first third) :
    second = third := by
  cases h with
  | cycle hp =>
    cases h' with
    | cycle => rfl
    | skip hp' | unread hp' | enter hp' => exact absurd hp hp'
  | skip hp hv =>
    cases h' with
    | cycle hp' => exact absurd hp' hp
    | skip => rfl
    | unread _ hv' | enter _ hv' => exact absurd hv hv'
  | unread hp hv hl =>
    cases h' with
    | cycle hp' => exact absurd hp' hp
    | skip _ hv' => exact absurd hv' hv
    | unread _ _ hl' =>
      cases hl.symm.trans hl'
      rfl
    | enter _ _ hl' => cases hl.symm.trans hl'
  | enter hp hv hl =>
    cases h' with
    | cycle hp' => exact absurd hp' hp
    | skip _ hv' => exact absurd hv' hv
    | unread _ _ hl' => cases hl.symm.trans hl'
    | enter _ _ hl' =>
      cases hl.symm.trans hl'
      rfl
  | leave =>
    cases h'
    rfl
  | finish =>
    cases h'
    rfl

/-- Where a run can end, it ends. -/
theorem Run.acc (h : Run space extension first second)
    (final : ∀ next, ¬ Step space extension second next) :
    Acc (fun later earlier => Step space extension earlier later) first := by
  induction h using Relation.ReflTransGen.head_induction_on with
  | refl => exact ⟨_, fun next hn => absurd hn (final next)⟩
  | head hs _ ih =>
    refine ⟨_, fun next hn => ?_⟩
    rw [hn.det hs]
    exact ih

/-- Whatever a run comes through, it goes on to its end. -/
theorem Run.goes_on (h : Run space extension first second)
    (final : ∀ next, ¬ Step space extension second next) (h' : Run space extension first third) :
    Run space extension third second := by
  have hunique : Relator.RightUnique (Step space extension) := fun _ _ _ => Step.det
  rcases h.total_of_right_unique hunique h' with hr | hr
  · rcases Relation.ReflTransGen.cases_head hr with rfl | ⟨next, hn, -⟩
    · exact .refl
    · exact absurd hn (final next)
  · exact hr

end

end Traversal

/-! ## Walks as runs -/

section
variable {space : Workspace} {extension : String} {inProgress visited paths : List Path}
  {modules : List Module} {inlined : Inlined}

/-- A walk that succeeds is a run over the imports of the innermost module. -/
theorem Emission.run (h : Emission space extension inProgress visited paths modules inlined)
    {resolver : Resolver} (hp : resolver.inProgress = inProgress) (hv : resolver.visited = visited)
    (module : Module) (left : List Path) (nested : Inlined) (outer : List Frame)
    (loads : List Path) : ∃ later, Traversal.Run space extension
      (.running resolver (⟨module, paths ++ left, nested⟩ :: outer) loads)
      (.running (resolver.emit modules) (⟨module, left, nested ++ inlined⟩ :: outer) later) := by
  induction h generalizing resolver module left nested outer loads with
  | nil => exact ⟨loads, by simpa using .refl⟩
  | skip hpath hvisited _ ih =>
    subst hp hv
    obtain ⟨later, hrun⟩ := ih rfl rfl module left nested outer loads
    exact ⟨later, .head (.skip hpath hvisited) hrun⟩
  | @enter _ _ rest path target below _ _ _ hpath hvisited hl hb _ ihb ihl =>
    subst hp hv
    have htarget := Workspace.path_of_load hl
    have hrecord : (resolver.emit below).record target.path =
        resolver.emit (below ++ [target]) := by
      rw [Resolver.record_eq_emit (htarget ▸ hb.notMem_of_enter hvisited), Resolver.emit_emit]
    obtain ⟨amid, hbelow⟩ := @ihb (resolver.enter path) rfl rfl target [] []
      (⟨module, rest ++ left, nested⟩ :: outer) (loads ++ [path])
    rw [List.append_nil] at hbelow
    obtain ⟨later, hrest⟩ := @ihl (resolver.emit (below ++ [target])) rfl
      (by simp [htarget]) module left (nested ++ [(path, combine target.stripped _)]) outer amid
    refine ⟨later, .head (.enter hpath hvisited (Workspace.load_eq_ok_iff_none.2 hl)) ?_⟩
    refine hbelow.trans (.head .leave ?_)
    rw [Resolver.leave_emit_enter, hrecord, htarget]
    simpa using hrest

/-- A walk that fails is a run to its error. -/
theorem Failure.run {importer : Option Path} {error : Error}
    (h : Failure space extension importer inProgress visited paths modules error)
    {resolver : Resolver} (hp : resolver.inProgress = inProgress) (hv : resolver.visited = visited)
    {module : Module} (hm : importer = some module.path) (nested : Inlined) (outer : List Frame)
    (loads : List Path) : ∃ later, Traversal.Run space extension
      (.running resolver (⟨module, paths, nested⟩ :: outer) loads)
      (.ended later (.error error)) := by
  induction h generalizing resolver module nested outer loads with
  | cycle hpath =>
    subst hp
    exact ⟨loads, .single (.cycle hpath)⟩
  | @unread _ _ _ _ path _ hpath hvisited hl =>
    subst hp hv hm
    exact ⟨loads ++ [path], .single (.unread hpath hvisited hl)⟩
  | skip hpath hvisited _ ih =>
    subst hp hv
    obtain ⟨later, hrun⟩ := ih rfl rfl hm nested outer loads
    exact ⟨later, .head (.skip hpath hvisited) hrun⟩
  | @inside _ _ _ rest path target _ _ hpath hvisited hl _ ih =>
    subst hp hv
    obtain ⟨later, hrun⟩ := @ih (resolver.enter path) rfl rfl target
      (congrArg some (Workspace.path_of_load hl).symm) [] (⟨module, rest, nested⟩ :: outer)
      (loads ++ [path])
    exact ⟨later, .head (.enter hpath hvisited (Workspace.load_eq_ok_iff_none.2 hl)) hrun⟩
  | @later _ _ _ rest path target below _ _ _ hpath hvisited hl hb _ ih =>
    subst hp hv
    -- The first path alone is a walk that succeeds.
    have hemission : Emission space extension resolver.inProgress resolver.visited [path]
        (below ++ [target]) [(path, combine target.stripped _)] := .enter hpath hvisited hl hb .nil
    obtain ⟨amid, hfirst⟩ := hemission.run rfl rfl module rest nested outer loads
    obtain ⟨later, hrest⟩ := @ih (resolver.emit (below ++ [target])) rfl
      (by simp [Workspace.path_of_load hl]) module hm
      (nested ++ [(path, combine target.stripped _)]) outer amid
    exact ⟨later, hfirst.trans hrest⟩

end

/-- From its entry a bundle is made by steps, or the error that takes its place. -/
theorem Traversal.run_bundle {space : Workspace} (rooted : space.cwd.isAbsolute = true)
    (extension : String) (entry : Path) : ∃ loads, Run space extension
      (start space extension (space.absolute entry))
      (.ended loads (space.bundle extension entry)) := by
  have hstart : ∀ {module}, space.load extension none (space.absolute entry) = .ok module →
      start space extension (space.absolute entry) =
        .running (Resolver.enter {} (space.absolute entry))
          [⟨module, module.dependencies, []⟩] [space.absolute entry] := by
    intro module hl
    rw [start, hl]
  rcases space.bundle_outcome extension entry with
    ⟨modules, text, he, hb⟩ | ⟨modules, error, hf, hb⟩ | ⟨entered, _, _, hd, hlen, -⟩
  · rw [hb]
    cases he with
    | skip _ hv => cases hv
    | @enter _ _ _ _ module below _ nested _ _ _ hl hbelow hrest =>
      cases hrest
      have hentered : Resolver.inProgress (.enter {} (space.absolute entry)) =
          [space.absolute entry] := rfl
      obtain ⟨loads, hrun⟩ := hbelow.run hentered rfl module [] [] [] [space.absolute entry]
      rw [List.append_nil] at hrun
      refine ⟨loads, ?_⟩
      rw [hstart hl]
      refine hrun.tail ?_
      have hfinish := @Step.finish space extension
        ((Resolver.enter {} (space.absolute entry)).emit below) module nested loads
      rw [Resolver.leave_emit_enter] at hfinish
      simpa [Workspace.path_of_load hl] using hfinish
  · rw [hb]
    cases hf with
    | cycle hp => cases hp
    | unread _ _ hl =>
      refine ⟨[space.absolute entry], ?_⟩
      rw [start, hl]
    | skip _ hv => cases hv
    | inside _ _ hl hbelow =>
      rw [hstart hl]
      exact hbelow.run rfl rfl (congrArg some (Workspace.path_of_load hl).symm) [] [] _
    | later _ _ _ _ hrest => cases hrest
  · have := hd.length_le rooted
    omega

/-! ## What a run keeps -/

namespace Workspace

variable {space : Workspace}

/-- The absolute normalized paths that lead to regular files. -/
def filePaths (space : Workspace) : Set Path :=
  {path | space.absolute path = path ∧ ∃ content, space.content? path = some content}

/-- They are finitely many. -/
theorem finite_filePaths (rooted : space.cwd.isAbsolute = true) : space.filePaths.Finite := by
  refine (List.finite_toSet (space.files.entries.flatMap (·.1.spellings))).subset ?_
  rintro path ⟨habsolute, content, hcontent⟩
  have hc : path.Canonical := habsolute ▸ Path.canonical_absolute rooted
  exact List.mem_flatMap.2 (mem_entries_of_canonical hc hcontent)

/-- Different paths of files are not more than there are. -/
theorem length_le_filePaths {paths : List Path} (rooted : space.cwd.isAbsolute = true)
    (hnodup : paths.Nodup) (h : ∀ path ∈ paths, path ∈ space.filePaths) :
    paths.length ≤ space.filePaths.ncard := by
  have hsub : (paths.toFinset : Set Path) ⊆ space.filePaths :=
    fun path hp => h path (by simpa using hp)
  have hcard := Set.ncard_le_ncard hsub (finite_filePaths rooted)
  rwa [Set.ncard_coe_finset, List.toFinset_card_of_nodup hnodup] at hcard

end Workspace

namespace Traversal

/-- What holds of a bundle in the making. The modules in progress are files, each of them another
one, and the resolver has them in the order in which they were entered. The imports that are left
are normalized. A path that was asked for, and none was twice, is in progress or inlined. -/
structure Sound (space : Workspace) (resolver : Resolver) (frames : List Frame)
    (loads : List Path) : Prop where
  stack : resolver.inProgress = (frames.map (·.module.path)).reverse
  nodup : resolver.inProgress.Nodup
  files : ∀ path ∈ resolver.inProgress, path ∈ space.filePaths
  normal : ∀ frame ∈ frames, ∀ path ∈ frame.left, space.absolute path = path
  once : loads.Nodup
  known : ∀ path ∈ loads, path ∈ resolver.inProgress ∨ path ∈ resolver.visited

/-- Of a bundle that is there it is still true that no path was asked for twice. -/
def Holds (space : Workspace) : Traversal → Prop
  | running resolver frames loads => Sound space resolver frames loads
  | ended loads _ => loads.Nodup

section
variable {space : Workspace} {extension : String} {resolver : Resolver} {module target : Module}
  {path : Path} {left loads : List Path} {nested : Inlined} {outer : List Frame}

/-- A path that is neither in progress nor inlined was not asked for yet. -/
theorem Sound.nodup_concat {frames : List Frame} (h : Sound space resolver frames loads)
    (hp : path ∉ resolver.inProgress) (hv : path ∉ resolver.visited) : (loads ++ [path]).Nodup := by
  have hnew : path ∉ loads := by
    intro hmem
    rcases h.known path hmem with hk | hk
    · exact hp hk
    · exact hv hk
  exact List.nodup_append.2 ⟨h.once, List.nodup_singleton path, by
    rintro other ho _ hs rfl
    exact hnew (List.mem_singleton.1 hs ▸ ho)⟩

/-- The paths of a module that can be loaded are normalized, and so is that of a file. -/
theorem mem_filePaths_of_load {importer : Option Path} (hn : space.absolute path = path)
    (hl : space.load extension importer path = .ok target) : path ∈ space.filePaths := by
  obtain ⟨content, hc, -⟩ := Workspace.isSource_iff_load.2 ⟨target, hl⟩
  exact ⟨hn, content, hc⟩

/-- A module that is entered. -/
theorem Sound.enter (rooted : space.cwd.isAbsolute = true)
    (h : Sound space resolver (⟨module, path :: left, nested⟩ :: outer) loads)
    (hp : path ∉ resolver.inProgress) (hv : path ∉ resolver.visited)
    (hl : space.load extension (some module.path) path = .ok target) :
    Sound space (resolver.enter path)
      (⟨target, target.dependencies, []⟩ :: ⟨module, left, nested⟩ :: outer) (loads ++ [path]) where
  stack := by
    rw [Resolver.inProgress_enter, h.stack]
    simp [Workspace.path_of_load hl]
  nodup := by
    refine List.nodup_append.2 ⟨h.nodup, List.nodup_singleton path, ?_⟩
    rintro other ho _ hs rfl
    exact hp (List.mem_singleton.1 hs ▸ ho)
  files other ho := by
    rcases List.mem_append.1 ho with ho | ho
    · exact h.files other ho
    · rw [List.mem_singleton.1 ho]
      exact mem_filePaths_of_load (h.normal _ List.mem_cons_self path List.mem_cons_self) hl
  normal frame hf other ho := by
    rcases List.mem_cons.1 hf with rfl | hf
    · have himport : space.Imports extension path other :=
        ⟨target, Workspace.load_eq_ok_iff_none.1 hl, ho⟩
      exact (himport.canonical rooted).absolute_eq
    · rcases List.mem_cons.1 hf with rfl | hf
      · exact h.normal _ List.mem_cons_self other (List.mem_cons_of_mem _ ho)
      · exact h.normal frame (List.mem_cons_of_mem _ hf) other ho
  once := h.nodup_concat hp hv
  known other ho := by
    rcases List.mem_append.1 ho with ho | ho
    · rcases h.known other ho with hk | hk
      · exact .inl (List.mem_append_left _ hk)
      · exact .inr hk
    · exact .inl (List.mem_append_right _ ho)

/-- A module that is left. -/
theorem Sound.leave {importer : Module} {texts : Inlined} (row : Path × String)
    (h : Sound space resolver (⟨module, [], nested⟩ :: ⟨importer, left, texts⟩ :: outer) loads) :
    Sound space (resolver.leave.record module.path)
      (⟨importer, left, texts ++ [row]⟩ :: outer) loads := by
  have hstack : resolver.inProgress =
      (resolver.leave.record module.path).inProgress ++ [module.path] := by
    have hlast := h.stack
    rw [List.map_cons, List.reverse_cons] at hlast
    simp [Resolver.record, Resolver.leave, hlast]
  have hvisited : ∀ other, other ∈ (resolver.leave.record module.path).visited ↔
      other ∈ resolver.visited ∨ other = module.path := fun _ => Resolver.mem_visited_visit
  have hnodup := h.nodup
  rw [hstack] at hnodup
  refine ⟨?_, (List.nodup_append.1 hnodup).1, fun other ho => h.files other ?_, ?_, h.once, ?_⟩
  · have hframes := hstack.symm.trans h.stack
    rw [List.map_cons, List.reverse_cons] at hframes
    exact List.append_cancel_right hframes
  · rw [hstack]
    exact List.mem_append_left _ ho
  · intro frame hf other ho
    rcases List.mem_cons.1 hf with rfl | hf
    · exact h.normal ⟨importer, left, texts⟩ (by simp) other ho
    · exact h.normal frame (by simp [hf]) other ho
  · intro other ho
    rw [hvisited]
    rcases h.known other ho with hk | hk
    · rw [hstack] at hk
      rcases List.mem_append.1 hk with hk | hk
      · exact .inl hk
      · exact .inr (.inr (List.mem_singleton.1 hk))
    · exact .inr (.inl hk)

/-- Every step keeps it. -/
theorem Step.sound {first second : Traversal} (rooted : space.cwd.isAbsolute = true)
    (hs : Step space extension first second) (h : first.Holds space) : second.Holds space := by
  cases hs with
  | cycle => exact h.once
  | @skip _ module path left _ nested outer =>
    have h : Sound space _ (⟨module, path :: left, nested⟩ :: outer) _ := h
    refine { h with normal := fun frame hf other ho => ?_, stack := h.stack }
    rcases List.mem_cons.1 hf with rfl | hf
    · exact h.normal _ List.mem_cons_self other (List.mem_cons_of_mem _ ho)
    · exact h.normal frame (List.mem_cons_of_mem _ hf) other ho
  | unread hp hv => exact Sound.nodup_concat h hp hv
  | enter hp hv hl => exact Sound.enter rooted h hp hv hl
  | leave => exact Sound.leave _ h
  | finish => exact h.once

/-- It holds when the entry was asked for. -/
theorem holds_start (rooted : space.cwd.isAbsolute = true) (extension : String) (entry : Path) :
    (start space extension (space.absolute entry)).Holds space := by
  have hself : space.absolute (space.absolute entry) = space.absolute entry :=
    (Path.canonical_absolute rooted).absolute_eq
  unfold start
  split
  · exact List.nodup_singleton _
  · next module hl =>
    refine ⟨?_, List.nodup_singleton _, ?_, ?_, List.nodup_singleton _, fun path hp => .inl hp⟩
    · simp [Resolver.enter, Workspace.path_of_load hl]
    · intro path hp
      rw [List.mem_singleton.1 hp]
      exact mem_filePaths_of_load hself hl
    · intro frame hf path hp
      rw [List.mem_singleton.1 hf] at hp
      have himport : space.Imports extension (space.absolute entry) path := ⟨module, hl, hp⟩
      exact (himport.canonical rooted).absolute_eq

end

end Traversal

/-- In a workspace whose working directory is absolute every bundle is made in finitely many steps,
whatever the imports are. Whatever a run comes through, it goes on to the bundle or to the error in
its place; until then it asks for no path twice, and it has no more modules in progress than there
are normalized paths of regular files. -/
theorem Workspace.traversal_bounded {space : Workspace} (rooted : space.cwd.isAbsolute = true)
    (extension : String) (entry : Path) :
    Acc (fun later earlier => Traversal.Step space extension earlier later)
      (.start space extension (space.absolute entry)) ∧
    ∀ reached,
      Traversal.Run space extension (.start space extension (space.absolute entry)) reached →
      (∃ loads, Traversal.Run space extension reached
        (.ended loads (space.bundle extension entry))) ∧
      reached.loads.Nodup ∧ reached.inProgress.length ≤ space.filePaths.ncard := by
  obtain ⟨loads, hrun⟩ := Traversal.run_bundle rooted extension entry
  have hfinal : ∀ next, ¬ Traversal.Step space extension
      (.ended loads (space.bundle extension entry)) next := nofun
  refine ⟨hrun.acc hfinal, fun reached hr => ⟨⟨loads, hrun.goes_on hfinal hr⟩, ?_⟩⟩
  have hholds : reached.Holds space := by
    induction hr with
    | refl => exact Traversal.holds_start rooted extension entry
    | tail _ hs ih => exact hs.sound rooted ih
  cases reached with
  | running resolver frames loads =>
    exact ⟨hholds.once, length_le_filePaths rooted hholds.nodup hholds.files⟩
  | ended loads result => exact ⟨hholds, Nat.zero_le _⟩

/-- The walk around the knot comes to its end. -/
theorem Workspace.traversal_bounded_knot : knot.cwd.isAbsolute = true ∧
    Acc (fun later earlier => Traversal.Step knot ".js" earlier later)
      (.start knot ".js" (knot.absolute "a.js")) ∧
    ∃ loads, Traversal.Run knot ".js" (.start knot ".js" (knot.absolute "a.js"))
      (.ended loads (.error (.circularImport ["/w/b.js", "/w/c.js", "/w/b.js"]))) := by
  have h := @traversal_bounded knot rfl ".js" "a.js"
  obtain ⟨loads, hrun⟩ := (h.2 _ .refl).1
  rw [bundle_knot] at hrun
  exact ⟨rfl, h.1, loads, hrun⟩

end Bundler
