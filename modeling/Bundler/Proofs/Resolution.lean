import Bundler.Proofs.Failure

/-!
# What a resolver does

`Resolver.inlineAll_outcome` ties the functions of a resolver to the rules of walks: from any state
and for any depth, a walk ends in an `Emission`, in a `Failure`, or because the depth is used up
while distinct files are entered one inside the other (`Descent`). In each case the resolver has
recorded the modules that were inlined, in order, and has left whatever it entered
(`Resolver.emit`). A bundle is a walk over its entry alone (`Workspace.bundle_eq_ok`,
`Workspace.bundle_eq_error`).
-/

namespace Bundler

/-- The files that a walk over the paths has entered one inside the other, the first of them named
by the paths and each of the others imported. -/
structure Descent (space : Workspace) (extension : String) (inProgress paths entered : List Path) :
    Prop where
  nodup : entered.Nodup
  fresh : ∀ path ∈ entered, path ∉ inProgress
  source : ∀ path ∈ entered, space.IsSource path
  first : ∀ path ∈ entered.head?, path ∈ paths
  imported : ∀ path ∈ entered.tail, ∃ parent, space.Imports extension parent path

section
variable {space : Workspace} {extension : String} {path : Path} {inProgress rest : List Path}
  {module : Module}

/-- The descent to one module that is entered. -/
theorem Descent.single (hp : path ∉ inProgress)
    (hl : space.load extension none path = .ok module) :
    Descent space extension inProgress (path :: rest) [path] where
  nodup := by simp
  fresh := by simpa using hp
  source := by simpa using Workspace.isSource_iff_load.2 ⟨module, hl⟩
  first := by simp
  imported := nofun

/-- A module that is entered continues with the descent to its imports. -/
theorem Descent.cons {entered : List Path} (hp : path ∉ inProgress)
    (hl : space.load extension none path = .ok module)
    (h : Descent space extension (inProgress ++ [path]) module.dependencies entered) :
    Descent space extension inProgress (path :: rest) (path :: entered) := by
  refine ⟨?_, fun target ht => ?_, fun target ht => ?_, by simp, fun target ht => ?_⟩
  · exact List.nodup_cons.2 ⟨fun hmem => h.fresh path hmem (by simp), h.nodup⟩
  · rcases List.mem_cons.1 ht with rfl | ht
    · exact hp
    · exact fun hmem => h.fresh target ht (List.mem_append_left _ hmem)
  · rcases List.mem_cons.1 ht with rfl | ht
    · exact Workspace.isSource_iff_load.2 ⟨module, hl⟩
    · exact h.source target ht
  · cases entered with
    | nil => cases ht
    | cons first deeper =>
      rcases List.mem_cons.1 ht with rfl | ht
      · exact ⟨path, module, hl, h.first _ rfl⟩
      · exact h.imported target ht

/-- A descent from the rest of the paths is one from all of them. -/
theorem Descent.later {entered : List Path}
    (h : Descent space extension inProgress rest entered) :
    Descent space extension inProgress (path :: rest) entered :=
  { h with first := fun target ht => .tail _ (h.first target ht) }

end

namespace Resolver

/-- The resolver with the modules inlined. -/
def emit (resolver : Resolver) (modules : List Module) : Resolver :=
  { resolver with
    visited := resolver.visited ++ modules.map (·.path)
    order := resolver.order ++ modules.map (·.path) }

@[simp] theorem emit_nil (resolver : Resolver) : resolver.emit [] = resolver := by
  simp [emit]

@[simp] theorem emit_emit (resolver : Resolver) (modules others : List Module) :
    (resolver.emit modules).emit others = resolver.emit (modules ++ others) := by
  simp [emit]

@[simp] theorem visited_emit (resolver : Resolver) (modules : List Module) :
    (resolver.emit modules).visited = resolver.visited ++ modules.map (·.path) := rfl

@[simp] theorem order_emit (resolver : Resolver) (modules : List Module) :
    (resolver.emit modules).order = resolver.order ++ modules.map (·.path) := rfl

@[simp] theorem inProgress_emit (resolver : Resolver) (modules : List Module) :
    (resolver.emit modules).inProgress = resolver.inProgress := rfl

@[simp] theorem inProgress_enter (resolver : Resolver) (path : Path) :
    (resolver.enter path).inProgress = resolver.inProgress ++ [path] := rfl

@[simp] theorem visited_enter (resolver : Resolver) (path : Path) :
    (resolver.enter path).visited = resolver.visited := rfl

/-- A module is left as it was entered, whatever was inlined in between. -/
@[simp] theorem leave_emit_enter (resolver : Resolver) (path : Path) (modules : List Module) :
    ((resolver.enter path).emit modules).leave = resolver.emit modules := by
  simp [emit, enter, leave]

@[simp] theorem inProgress_visit (resolver : Resolver) (path : Path) :
    (resolver.visit path).inProgress = resolver.inProgress := by
  unfold visit; split <;> rfl

@[simp] theorem order_visit (resolver : Resolver) (path : Path) :
    (resolver.visit path).order = resolver.order := by
  unfold visit; split <;> rfl

/-- A module that is marked as inlined is visited beside the others. -/
@[simp] theorem mem_visited_visit {resolver : Resolver} {path other : Path} :
    other ∈ (resolver.visit path).visited ↔ other ∈ resolver.visited ∨ other = path := by
  unfold visit
  split
  · next hv =>
    constructor
    · exact .inl
    · rintro (ho | rfl)
      · exact ho
      · exact hv
  · simp

/-- Recording a module that is not inlined inlines it. -/
theorem record_eq_emit {resolver : Resolver} {module : Module}
    (h : module.path ∉ resolver.visited) :
    resolver.record module.path = resolver.emit [module] := by
  simp [record, visit, emit, h]

section
variable {load : Option Path → Path → Except Error Module} {depth : Nat} {importer : Option Path}
  {path : Path} {module : Module} {resolver after : Resolver} {error : Error}

/-- A path in progress closes a cycle. -/
theorem inline_of_inProgress (hp : path ∈ resolver.inProgress) :
    inline load depth importer path resolver =
      (resolver, .error (.circularImport (resolver.cycle path))) := by
  rw [inline, if_pos hp]

/-- A path that is inlined already adds no text. -/
theorem inline_of_visited (hp : path ∉ resolver.inProgress) (hv : path ∈ resolver.visited) :
    inline load depth importer path resolver = (resolver, .ok []) := by
  rw [inline, if_neg hp, if_pos hv]

/-- A path from which no module can be loaded is an error. -/
theorem inline_of_load_error (hp : path ∉ resolver.inProgress) (hv : path ∉ resolver.visited)
    (hl : load importer path = .error error) :
    inline load depth importer path resolver = (resolver, .error error) := by
  rw [inline, if_neg hp, if_neg hv, hl]

/-- No module is entered when the depth is used up. -/
theorem inline_zero_of_load (hp : path ∉ resolver.inProgress) (hv : path ∉ resolver.visited)
    (hl : load importer path = .ok module) :
    inline load 0 importer path resolver =
      (resolver, .error (.moduleNotFound path importer)) := by
  rw [inline, if_neg hp, if_neg hv, hl]

/-- An error below a module that was entered is passed on, and the module is left. -/
theorem inline_succ_of_error (hp : path ∉ resolver.inProgress) (hv : path ∉ resolver.visited)
    (hl : load importer path = .ok module)
    (h : inlineAll (inline load depth (some path)) module.dependencies (resolver.enter path) =
      (after, .error error)) :
    inline load (depth + 1) importer path resolver = (after.leave, .error error) := by
  rw [inline, if_neg hp, if_neg hv, hl]
  dsimp only
  rw [h]

/-- A module that was entered is left and recorded after its imports. -/
theorem inline_succ_of_ok {nested : Inlined} (hp : path ∉ resolver.inProgress)
    (hv : path ∉ resolver.visited) (hl : load importer path = .ok module)
    (h : inlineAll (inline load depth (some path)) module.dependencies (resolver.enter path) =
      (after, .ok nested)) :
    inline load (depth + 1) importer path resolver =
      (after.leave.record path, .ok [(path, combine module.stripped nested)]) := by
  rw [inline, if_neg hp, if_neg hv, hl]
  dsimp only
  rw [h]

end

/-- How a walk over paths may end, from the state of the resolver at its start. -/
inductive Outcome (space : Workspace) (extension : String) (depth : Nat) (importer : Option Path)
    (paths : List Path) (resolver : Resolver) : Resolver × Except Error Inlined → Prop
  | emission {modules : List Module} {inlined : Inlined} :
      Emission space extension resolver.inProgress resolver.visited paths modules inlined →
      Outcome space extension depth importer paths resolver (resolver.emit modules, .ok inlined)
  | failure {modules : List Module} {error : Error} :
      Failure space extension importer resolver.inProgress resolver.visited paths modules error →
      Outcome space extension depth importer paths resolver (resolver.emit modules, .error error)
  | exhausted {modules : List Module} {entered : List Path} {path : Path} {parent : Option Path} :
      Descent space extension resolver.inProgress paths entered → entered.length = depth + 1 →
      Outcome space extension depth importer paths resolver
        (resolver.emit modules, .error (.moduleNotFound path parent))

section
variable {space : Workspace} {extension : String} {depth : Nat} {importer : Option Path}
  {path : Path} {rest : List Path} {resolver : Resolver}

/-- A failure at the first path is the failure of the walk. -/
theorem inlineAll_cons_error {inline : Path → Resolver → Resolver × Except Error Inlined}
    {after : Resolver} {error : Error} (h : inline path resolver = (after, .error error)) :
    inlineAll inline (path :: rest) resolver = (after, .error error) := by
  simp [inlineAll, h]

/-- After the first path the walk goes on with the other ones, and puts their texts behind. -/
theorem inlineAll_cons_ok {inline : Path → Resolver → Resolver × Except Error Inlined}
    {after : Resolver} {here : Inlined} (h : inline path resolver = (after, .ok here)) :
    inlineAll inline (path :: rest) resolver =
      ((inlineAll inline rest after).1, (inlineAll inline rest after).2.map (here ++ ·)) := by
  rw [inlineAll, h]
  dsimp only
  rcases inlineAll inline rest after with ⟨last, _ | later⟩ <;> rfl

/-- A walk that fails at its first path inlines nothing. -/
theorem Outcome.failure_nil {paths : List Path} {error : Error}
    (h : Failure space extension importer resolver.inProgress resolver.visited paths [] error) :
    Outcome space extension depth importer paths resolver (resolver, .error error) := by
  have : Outcome space extension depth importer paths resolver (resolver.emit [], .error error) :=
    .failure h
  rwa [emit_nil] at this

/-- A path that is inlined already adds nothing to the outcome of the rest. -/
theorem Outcome.skip {ending : Resolver × Except Error Inlined} (hp : path ∉ resolver.inProgress)
    (hv : path ∈ resolver.visited)
    (h : Outcome space extension depth importer rest resolver ending) :
    Outcome space extension depth importer (path :: rest) resolver ending := by
  cases h with
  | emission he => exact .emission (.skip hp hv he)
  | failure hf => exact .failure (.skip hp hv hf)
  | exhausted hd hlen => exact .exhausted hd.later hlen

/-- A path that was entered and inlined comes before what the rest inlines. -/
theorem Outcome.enter {module : Module} {below : List Module} {nested : Inlined}
    {ending : Resolver × Except Error Inlined} (hp : path ∉ resolver.inProgress)
    (hv : path ∉ resolver.visited) (hl : space.load extension none path = .ok module)
    (hb : Emission space extension (resolver.inProgress ++ [path]) resolver.visited
      module.dependencies below nested)
    (h : Outcome space extension depth importer rest (resolver.emit (below ++ [module])) ending) :
    Outcome space extension depth importer (path :: rest) resolver
      (ending.1, ending.2.map ([(path, combine module.stripped nested)] ++ ·)) := by
  have hpath := Workspace.path_of_load hl
  cases h with
  | emission he =>
    simp only [emit_emit, List.append_assoc, List.cons_append, List.nil_append]
    refine .emission (.enter hp hv hl hb ?_)
    simpa [hpath] using he
  | failure hf =>
    simp only [emit_emit, List.append_assoc, List.cons_append, List.nil_append]
    refine .failure (.later hp hv hl hb ?_)
    simpa [hpath] using hf
  | exhausted hd hlen =>
    simp only [emit_emit]
    exact .exhausted hd.later hlen

/-- The walk over no path inlines nothing. -/
theorem inlineAll_outcome_nil {inline : Path → Resolver → Resolver × Except Error Inlined} :
    Outcome space extension depth importer [] resolver (inlineAll inline [] resolver) := by
  have : Outcome space extension depth importer [] resolver (resolver.emit [], .ok []) :=
    .emission .nil
  rwa [emit_nil] at this

/-- One step of a walk: if the walk over the rest and the walks below the first path end in one of
the three ways, so does the whole walk. -/
theorem inlineAll_outcome_cons
    (hrest : ∀ resolver, Outcome space extension depth importer rest resolver
      (inlineAll (inline (space.load extension) depth importer) rest resolver))
    (hbelow : ∀ {shallower : Nat}, depth = shallower + 1 → ∀ (targets : List Path)
      (resolver : Resolver), Outcome space extension shallower (some path) targets resolver
        (inlineAll (inline (space.load extension) shallower (some path)) targets resolver)) :
    Outcome space extension depth importer (path :: rest) resolver
      (inlineAll (inline (space.load extension) depth importer) (path :: rest) resolver) := by
  by_cases hp : path ∈ resolver.inProgress
  · rw [inlineAll_cons_error (inline_of_inProgress hp)]
    exact .failure_nil (.cycle hp)
  by_cases hv : path ∈ resolver.visited
  · rw [inlineAll_cons_ok (inline_of_visited hp hv)]
    have := (hrest resolver).skip hp hv
    rcases hi : inlineAll (inline (space.load extension) depth importer) rest resolver
      with ⟨after, _ | later⟩ <;> rwa [hi] at this
  cases hl : space.load extension importer path with
  | error error =>
    rw [inlineAll_cons_error (inline_of_load_error hp hv hl)]
    exact .failure_nil (.unread hp hv hl)
  | ok module =>
    have hnone := Workspace.load_eq_ok_iff_none.1 hl
    cases depth with
    | zero =>
      rw [inlineAll_cons_error (inline_zero_of_load hp hv hl)]
      have : Outcome space extension 0 importer (path :: rest) resolver
          (resolver.emit [], .error (.moduleNotFound path importer)) :=
        .exhausted (.single hp hnone) rfl
      rwa [emit_nil] at this
    | succ depth =>
      -- The module is entered, and the walk over its imports decides what becomes of it.
      have hb := hbelow rfl module.dependencies (resolver.enter path)
      generalize hi : inlineAll (inline (space.load extension) depth (some path))
        module.dependencies (resolver.enter path) = ending at hb
      cases hb with
      | @emission below nested he =>
        have hfresh : module.path ∉ (resolver.emit below).visited := by
          rw [Workspace.path_of_load hl]
          exact he.notMem_of_enter hv
        have hrecord := record_eq_emit hfresh
        rw [Workspace.path_of_load hl, emit_emit] at hrecord
        rw [inlineAll_cons_ok (inline_succ_of_ok hp hv hl hi), leave_emit_enter, hrecord]
        exact .enter hp hv hnone he (hrest _)
      | failure hf =>
        rw [inlineAll_cons_error (inline_succ_of_error hp hv hl hi), leave_emit_enter]
        exact .failure (.inside hp hv hnone hf)
      | exhausted hd hlen =>
        rw [inlineAll_cons_error (inline_succ_of_error hp hv hl hi), leave_emit_enter]
        exact .exhausted (hd.cons hp hnone) (by simp [hlen])

/-- Every walk ends in one of the three ways. The induction is on the depth, which decreases where a
module is entered, and inside it on the paths. -/
theorem inlineAll_outcome (depth : Nat) (importer : Option Path) (paths : List Path)
    (resolver : Resolver) : Outcome space extension depth importer paths resolver
      (inlineAll (inline (space.load extension) depth importer) paths resolver) := by
  induction depth generalizing importer paths resolver with
  | zero =>
    induction paths generalizing resolver with
    | nil => exact inlineAll_outcome_nil
    | cons path rest ih => exact inlineAll_outcome_cons ih nofun
  | succ depth ihd =>
    induction paths generalizing resolver with
    | nil => exact inlineAll_outcome_nil
    | cons path rest ih =>
      refine inlineAll_outcome_cons ih fun hd targets resolver => ?_
      cases hd
      exact ihd _ targets resolver

/-- So does what a resolver does with paths, whatever it did before. -/
theorem resolve_outcome (importer : Option Path) (paths : List Path) (resolver : Resolver) :
    Outcome space extension (space.fileNames + 1) importer paths resolver
      (resolver.resolve space extension importer paths) :=
  inlineAll_outcome _ importer paths resolver

end

end Resolver

namespace Workspace

variable {space : Workspace} {extension : String} {entry : Path}

/-- A bundle is what a walk over the entry alone inlines. There is none if this walk fails, or if
the files that it enters one inside the other are more than there are names for files. -/
theorem bundle_outcome (space : Workspace) (extension : String) (entry : Path) :
    (∃ modules text, Emission space extension [] [] [space.absolute entry] modules
        [(space.absolute entry, text)] ∧ space.bundle extension entry =
          .ok ⟨space.absolute entry, text, modules.map (·.path)⟩) ∨
      (∃ modules error, Failure space extension none [] [] [space.absolute entry] modules error ∧
        space.bundle extension entry = .error error) ∨
      ∃ entered missing parent, Descent space extension [] [space.absolute entry] entered ∧
        space.fileNames + 1 < entered.length ∧
        space.bundle extension entry = .error (.moduleNotFound missing parent) := by
  unfold bundle Resolver.resolveEntry Resolver.resolve
  dsimp only
  cases hl : space.load extension none (space.absolute entry) with
  | error error => exact .inr (.inl ⟨[], error, .unread nofun nofun hl, rfl⟩)
  | ok module =>
    dsimp only
    have hout : Resolver.Outcome space extension _ (some (space.absolute entry)) _
      (Resolver.enter {} (space.absolute entry)) _ := Resolver.inlineAll_outcome
        (space.fileNames + 1) _ module.dependencies _
    generalize Resolver.inlineAll _ _ _ = ending at hout
    cases hout with
    | @emission below nested he =>
      refine .inl ⟨below ++ [module], _, .enter nofun nofun hl he .nil, ?_⟩
      simp [Resolver.leave, Resolver.emit, Resolver.enter, path_of_load hl]
    | failure hf => exact .inr (.inl ⟨_, _, .inside nofun nofun hl hf, rfl⟩)
    | exhausted hd hlen =>
      exact .inr (.inr ⟨_, _, _, hd.cons nofun hl, by simp [hlen], rfl⟩)

/-- A bundle that there is holds what a walk over the entry inlines. -/
theorem bundle_eq_ok {bundle : Bundle} (h : space.bundle extension entry = .ok bundle) :
    ∃ modules, Emission space extension [] [] [space.absolute entry] modules
        [(space.absolute entry, bundle.text)] ∧ bundle.modules = modules.map (·.path) := by
  rcases bundle_outcome space extension entry with ⟨modules, text, he, hb⟩ | ⟨_, _, -, hb⟩ |
    ⟨_, _, _, -, -, hb⟩
  · cases h.symm.trans hb
    exact ⟨modules, he, rfl⟩
  · cases h.symm.trans hb
  · cases h.symm.trans hb

/-- The error in place of a bundle is that of a walk over the entry, or tells of a descent through
more files than there are names. -/
theorem bundle_eq_error {error : Error} (h : space.bundle extension entry = .error error) :
    (∃ modules, Failure space extension none [] [] [space.absolute entry] modules error) ∨
      ∃ entered missing parent, Descent space extension [] [space.absolute entry] entered ∧
        space.fileNames + 1 < entered.length ∧ error = .moduleNotFound missing parent := by
  rcases bundle_outcome space extension entry with ⟨_, _, -, hb⟩ | ⟨modules, _, hf, hb⟩ |
    ⟨entered, missing, parent, hd, hlen, hb⟩
  · cases h.symm.trans hb
  · cases h.symm.trans hb
    exact .inl ⟨modules, hf⟩
  · cases h.symm.trans hb
    exact .inr ⟨entered, missing, parent, hd, hlen, rfl⟩

end Workspace

end Bundler
