import Bundler.Proofs.Emission

/-!
# Walks that fail

`Failure` is the rule of a walk that fails, beside `Emission`. A walk fails at one place: it meets a
module in progress, or a module that cannot be loaded. The modules that it inlined before are in
order like those of a walk that succeeds (`Failure.inOrder`). What the modules in progress are at
that place is said by `Way`: they lead from the start along imports to the module whose imports are
walked over, without coming back to any of them, and each step down keeps this (`Way.enter`). So a
module that is met while in progress closes a simple cycle (`Way.importCycle`), and every failure is
one of a path that the start reaches (`Failure.cause`).
-/

namespace Bundler

/-- The start reaches what makes a walk fail with the error: an import cycle, or a path from which
no module can be loaded, named by the module that imports it unless it is the start itself. -/
inductive Cause (space : Workspace) (extension : String) (start : Path) : Error → Prop
  | cycle {cycle : List Path} {path : Path} : space.ImportCycle extension cycle →
      cycle.head? = some path → space.Reaches extension start path →
      Cause space extension start (.circularImport cycle)
  | unread {path : Path} {importer : Option Path} {error : Error} :
      space.Reaches extension start path →
      (∀ parent, importer = some parent →
        space.Reaches extension start parent ∧ space.Imports extension parent path) →
      space.load extension importer path = .error error → Cause space extension start error

namespace Cause

variable {space : Workspace} {extension : String} {start : Path}

/-- A cycle that is the cause is a simple one, and the start reaches it. -/
theorem of_circularImport {cycle : List Path}
    (h : Cause space extension start (.circularImport cycle)) :
    space.ImportCycle extension cycle ∧
      ∃ path, cycle.head? = some path ∧ space.Reaches extension start path := by
  cases h with
  | cycle hc hhead hr => exact ⟨hc, _, hhead, hr⟩
  | unread _ _ hl => exact absurd hl Workspace.load_ne_circularImport

/-- A missing import that is the cause is named by a module that the start reaches. -/
theorem of_moduleNotFound {path importer : Path}
    (h : Cause space extension start (.moduleNotFound path (some importer))) :
    space.Reaches extension start importer ∧ space.Imports extension importer path ∧
      space.exists? path = false := by
  cases h with
  | unread _ hi hl =>
    obtain ⟨rfl, himp, hx⟩ := Workspace.load_eq_moduleNotFound hl
    obtain ⟨hr, hp⟩ := hi importer himp.symm
    exact ⟨hr, hp, hx⟩

end Cause

/-- A walk over the paths that the importer names, started while the modules `inProgress` are
entered and those of `visited` are inlined, that fails after it inlined the modules of the last
list. -/
inductive Failure (space : Workspace) (extension : String) :
    Option Path → List Path → List Path → List Path → List Module → Error → Prop
  /-- The first path is in progress. -/
  | cycle {importer : Option Path} {inProgress visited rest : List Path} {path : Path} :
      path ∈ inProgress →
      Failure space extension importer inProgress visited (path :: rest) []
        (.circularImport (inProgress.dropWhile (· ≠ path) ++ [path]))
  /-- No module can be loaded from the first path. -/
  | unread {importer : Option Path} {inProgress visited rest : List Path} {path : Path}
      {error : Error} : path ∉ inProgress → path ∉ visited →
      space.load extension importer path = .error error →
      Failure space extension importer inProgress visited (path :: rest) [] error
  /-- The first path is inlined already. -/
  | skip {importer : Option Path} {inProgress visited rest : List Path} {path : Path}
      {modules : List Module} {error : Error} : path ∉ inProgress → path ∈ visited →
      Failure space extension importer inProgress visited rest modules error →
      Failure space extension importer inProgress visited (path :: rest) modules error
  /-- The first path is entered, and its imports fail. -/
  | inside {importer : Option Path} {inProgress visited rest : List Path} {path : Path}
      {module : Module} {modules : List Module} {error : Error} : path ∉ inProgress →
      path ∉ visited → space.load extension none path = .ok module →
      Failure space extension (some path) (inProgress ++ [path]) visited module.dependencies modules
        error →
      Failure space extension importer inProgress visited (path :: rest) modules error
  /-- The first path is inlined, and a later one fails. -/
  | later {importer : Option Path} {inProgress visited rest : List Path} {path : Path}
      {module : Module} {below modules : List Module} {nested : Inlined} {error : Error} :
      path ∉ inProgress → path ∉ visited → space.load extension none path = .ok module →
      Emission space extension (inProgress ++ [path]) visited module.dependencies below nested →
      Failure space extension importer inProgress (visited ++ below.map (·.path) ++ [path]) rest
        modules error →
      Failure space extension importer inProgress visited (path :: rest)
        (below ++ module :: modules) error

section
variable {space : Workspace} {extension : String} {importer : Option Path}
  {inProgress visited paths : List Path} {modules : List Module} {error : Error}

/-- The modules that a walk inlines before it fails are in order. -/
theorem Failure.inOrder
    (h : Failure space extension importer inProgress visited paths modules error) :
    InOrder visited modules := by
  induction h with
  | cycle | unread => trivial
  | skip _ _ _ ih | inside _ _ _ _ ih => exact ih
  | later _ hv hl hbelow _ ih =>
    have hpath := Workspace.path_of_load hl
    refine InOrder.append_iff.2 ⟨hbelow.inOrder, hpath ▸ hbelow.notMem_of_enter hv,
      hbelow.covers, ?_⟩
    rwa [hpath]

/-- Each of them is the module at its path. -/
theorem Failure.loaded
    (h : Failure space extension importer inProgress visited paths modules error) :
    ∀ module ∈ modules, space.load extension none module.path = .ok module := by
  induction h with
  | cycle | unread => nofun
  | skip _ _ _ ih | inside _ _ _ _ ih => exact ih
  | later _ _ hl hbelow _ ih =>
    refine List.forall_mem_append.2 ⟨hbelow.loaded, List.forall_mem_cons.2 ⟨?_, ih⟩⟩
    rwa [Workspace.path_of_load hl]

end

/-- The modules in progress lead along imports from the start to the importer of the paths, and none
of them is met twice on this way. -/
structure Way (space : Workspace) (extension : String) (start : Path) (importer : Option Path)
    (inProgress paths : List Path) : Prop where
  nodup : inProgress.Nodup
  source : ∀ path ∈ inProgress, space.IsSource path
  imports : ∀ path ∈ paths, (inProgress ++ [path]).IsChain (space.Imports extension)
  reached : ∀ path ∈ inProgress ++ paths, space.Reaches extension start path
  innermost : importer = inProgress.getLast?

section
variable {space : Workspace} {extension : String} {start path : Path} {importer : Option Path}
  {inProgress paths rest : List Path}

namespace Way

/-- The way at the start has no module in progress. -/
theorem root : Way space extension start none [] [start] where
  nodup := .nil
  source := nofun
  imports _ _ := .singleton _
  reached := by simp [Workspace.Reaches, Relation.ReflTransGen.refl]
  innermost := rfl

/-- The way does not change when the first path is done. -/
theorem tail (h : Way space extension start importer inProgress (path :: rest)) :
    Way space extension start importer inProgress rest where
  nodup := h.nodup
  source := h.source
  imports target ht := h.imports target (List.mem_cons_of_mem _ ht)
  reached target ht := h.reached target (by
    rcases List.mem_append.1 ht with ht | ht
    · exact List.mem_append_left _ ht
    · exact List.mem_append_right _ (List.mem_cons_of_mem _ ht))
  innermost := h.innermost

/-- A module that is entered continues the way to its own imports. -/
theorem enter {module : Module} (h : Way space extension start importer inProgress (path :: rest))
    (hp : path ∉ inProgress) (hl : space.load extension none path = .ok module) :
    Way space extension start (some path) (inProgress ++ [path]) module.dependencies := by
  have hreach : space.Reaches extension start path :=
    h.reached path (List.mem_append_right _ List.mem_cons_self)
  refine ⟨?_, fun target ht => ?_, fun target ht => ?_, fun target ht => ?_, by simp⟩
  · exact List.nodup_append.2 ⟨h.nodup, by simp, by
      rintro a ha b hb rfl
      exact hp (List.mem_singleton.1 hb ▸ ha)⟩
  · rcases List.mem_append.1 ht with ht | ht
    · exact h.source target ht
    · exact List.mem_singleton.1 ht ▸ Workspace.isSource_iff_load.2 ⟨module, hl⟩
  · refine List.isChain_append.2 ⟨h.imports path List.mem_cons_self, .singleton _, ?_⟩
    intro last hlast first hfirst
    simp only [List.getLast?_concat, Option.mem_some_iff, List.head?_cons] at hlast hfirst
    subst hlast hfirst
    exact ⟨module, hl, ht⟩
  · rcases List.mem_append.1 ht with ht | ht
    · rcases List.mem_append.1 ht with ht | ht
      · exact h.reached target (List.mem_append_left _ ht)
      · exact List.mem_singleton.1 ht ▸ hreach
    · exact hreach.tail ⟨module, hl, ht⟩

/-- The importer of the paths is reached from the start and imports each of them. -/
theorem imports_of_importer {parent : Path}
    (h : Way space extension start importer inProgress paths) (hi : importer = some parent)
    (hp : path ∈ paths) :
    space.Reaches extension start parent ∧ space.Imports extension parent path := by
  have hlast : inProgress.getLast? = some parent := h.innermost.symm.trans hi
  refine ⟨h.reached parent (List.mem_append_left _ (List.mem_of_getLast? hlast)), ?_⟩
  exact (List.isChain_append.1 (h.imports path hp)).2.2 parent hlast path rfl

/-- A path that is met while in progress closes a simple cycle, and what leads to the cycle is not
in it. -/
theorem importCycle (h : Way space extension start importer inProgress (path :: rest))
    (hp : path ∈ inProgress) :
    space.ImportCycle extension (inProgress.dropWhile (· ≠ path) ++ [path]) ∧
      (inProgress.dropWhile (· ≠ path) ++ [path]).head? = some path := by
  obtain ⟨before, after, hsplit, hnot⟩ := List.eq_append_cons_of_mem hp
  have hdrop : inProgress.dropWhile (· ≠ path) = path :: after := by
    rw [hsplit, List.dropWhile_append_of_pos]
    · simp
    · intro other ho
      simpa using fun he : other = path => hnot (he ▸ ho)
  have hsuffix : path :: after <:+ inProgress := ⟨before, hsplit.symm⟩
  rw [hdrop]
  refine ⟨⟨by simp, by rw [List.getLast?_concat]; rfl, ?_, ?_, fun other ho => ?_⟩, rfl⟩
  · rw [List.dropLast_concat]
    exact h.nodup.sublist hsuffix.sublist
  · refine (h.imports path List.mem_cons_self).suffix ⟨before, ?_⟩
    rw [← List.append_assoc, hsplit]
  · rcases List.mem_append.1 ho with ho | ho
    · exact h.source other (hsuffix.subset ho)
    · exact List.mem_singleton.1 ho ▸ h.source path hp

end Way

/-- A walk fails for a cause that its start reaches. -/
theorem Failure.cause {visited : List Path} {modules : List Module} {error : Error}
    (h : Failure space extension importer inProgress visited paths modules error)
    (hw : Way space extension start importer inProgress paths) :
    Cause space extension start error := by
  induction h with
  | cycle hp =>
    obtain ⟨hcycle, hhead⟩ := hw.importCycle hp
    exact .cycle hcycle hhead (hw.reached _ (List.mem_append_left _ hp))
  | unread _ _ he =>
    exact .unread (hw.reached _ (List.mem_append_right _ List.mem_cons_self))
      (fun _ hi => hw.imports_of_importer hi List.mem_cons_self) he
  | skip _ _ _ ih | later _ _ _ _ _ ih => exact ih hw.tail
  | inside hp _ hl _ ih => exact ih (hw.enter hp hl)

end

end Bundler
