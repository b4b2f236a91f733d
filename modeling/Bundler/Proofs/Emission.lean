import Bundler.Proofs.ImportGraph
import Bundler.Proofs.Joining

/-!
# Walks that succeed

`Emission` is the rule of a walk that succeeds, without the bookkeeping of a resolver: which modules
it inlines, in which order, and which texts it hands up to the module that it started from. All that
holds of a successful walk is proved of this relation, by induction on its three rules.

* `Emission.inOrder`: each module is new, and comes after all that it imports.
* `Emission.covers` and `Emission.reached`: every path of the walk is inlined now or was before, and
  nothing is inlined that the paths do not reach.
* `Emission.mem_of_reaches`: when the walk starts from a set that is closed under imports, nothing
  that the paths reach is left out.
* `Emission.joinFilled_eq`: the texts that are handed up, joined, are the codes of the inlined
  modules, joined.
-/

namespace Bundler

/-- Each of the modules is not known when its turn comes, and all that it imports is. -/
def InOrder : List Path → List Module → Prop
  | _, [] => True
  | known, module :: rest =>
    module.path ∉ known ∧ (∀ target ∈ module.dependencies, target ∈ known) ∧
      InOrder (known ++ [module.path]) rest

namespace InOrder

/-- Modules are in order if the first part is, and the second part after it. -/
theorem append_iff {known : List Path} {modules others : List Module} :
    InOrder known (modules ++ others) ↔
      InOrder known modules ∧ InOrder (known ++ modules.map (·.path)) others := by
  induction modules generalizing known with
  | nil => simp [InOrder]
  | cons module rest ih => simp [InOrder, ih, and_assoc]

/-- Modules in order are new and differ from each other. -/
theorem nodup {known : List Path} {modules : List Module} (h : InOrder known modules) :
    (modules.map (·.path)).Nodup ∧ ∀ module ∈ modules, module.path ∉ known := by
  induction modules generalizing known with
  | nil => simp
  | cons module rest ih =>
    obtain ⟨hnew, -, hrest⟩ := h
    obtain ⟨hnd, hfresh⟩ := ih hrest
    refine ⟨?_, fun other ho => ?_⟩
    · rw [List.map_cons, List.nodup_cons]
      refine ⟨fun hmem => ?_, hnd⟩
      obtain ⟨other, ho, he⟩ := List.mem_map.1 hmem
      exact hfresh other ho (by simp [he])
    · rcases List.mem_cons.1 ho with rfl | ho
      · exact hnew
      · exact fun hk => hfresh other ho (List.mem_append_left _ hk)

/-- What a module imports stands before it, in the list of all that is known in the end. -/
theorem idxOf_lt {known : List Path} {modules : List Module} (h : InOrder known modules)
    {module : Module} (hm : module ∈ modules) {target : Path} (ht : target ∈ module.dependencies) :
    (known ++ modules.map (·.path)).idxOf target <
      (known ++ modules.map (·.path)).idxOf module.path := by
  induction modules generalizing known with
  | nil => cases hm
  | cons first rest ih =>
    obtain ⟨hnew, hdeps, hrest⟩ := h
    rcases List.mem_cons.1 hm with rfl | hm
    · have htk := hdeps target ht
      rw [List.idxOf_append_of_mem htk, List.idxOf_append_of_notMem hnew]
      exact Nat.lt_add_right _ (List.idxOf_lt_length_of_mem htk)
    · simpa using ih hrest hm

end InOrder

/-- A walk over paths that succeeds, started while the modules `inProgress` are entered and those of
`visited` are inlined. It inlines the modules of the fourth list in this order, and the fifth holds
the texts for the module that names the paths. -/
inductive Emission (space : Workspace) (extension : String) :
    List Path → List Path → List Path → List Module → Inlined → Prop
  /-- Nothing is left to inline. -/
  | nil {inProgress visited : List Path} : Emission space extension inProgress visited [] [] []
  /-- The first path is inlined already. -/
  | skip {inProgress visited rest : List Path} {path : Path} {modules : List Module}
      {inlined : Inlined} : path ∉ inProgress → path ∈ visited →
      Emission space extension inProgress visited rest modules inlined →
      Emission space extension inProgress visited (path :: rest) modules inlined
  /-- The first path is entered: its imports are inlined before it, the other paths after it. -/
  | enter {inProgress visited rest : List Path} {path : Path} {module : Module}
      {below later : List Module} {nested inlined : Inlined} : path ∉ inProgress → path ∉ visited →
      space.load extension none path = .ok module →
      Emission space extension (inProgress ++ [path]) visited module.dependencies below nested →
      Emission space extension inProgress (visited ++ below.map (·.path) ++ [path]) rest later
        inlined →
      Emission space extension inProgress visited (path :: rest) (below ++ module :: later)
        ((path, combine module.stripped nested) :: inlined)

namespace Emission

variable {space : Workspace} {extension : String} {inProgress visited paths : List Path}
  {modules : List Module} {inlined : Inlined}

/-- A module in progress is not inlined. -/
theorem notMem_inProgress (h : Emission space extension inProgress visited paths modules inlined) :
    ∀ module ∈ modules, module.path ∉ inProgress := by
  induction h with
  | nil => simp
  | skip _ _ _ ih => exact ih
  | enter hp _ hl _ _ ihb ihl =>
    intro other ho
    rcases List.mem_append.1 ho with ho | ho
    · exact fun hmem => ihb other ho (List.mem_append_left _ hmem)
    · rcases List.mem_cons.1 ho with rfl | ho
      · rwa [Workspace.path_of_load hl]
      · exact ihl other ho

/-- A module that is entered is not inlined by the walk over its imports. -/
theorem notMem_of_enter {path : Path} (hv : path ∉ visited)
    (h : Emission space extension (inProgress ++ [path]) visited paths modules inlined) :
    path ∉ visited ++ modules.map (·.path) := by
  intro hmem
  rcases List.mem_append.1 hmem with hmem | hmem
  · exact hv hmem
  · obtain ⟨other, ho, he⟩ := List.mem_map.1 hmem
    exact h.notMem_inProgress other ho (by simp [he])

/-- Every path of the walk is inlined in the end. -/
theorem covers (h : Emission space extension inProgress visited paths modules inlined) :
    ∀ path ∈ paths, path ∈ visited ++ modules.map (·.path) := by
  induction h with
  | nil => simp
  | skip _ hv _ ih =>
    intro target ht
    rcases List.mem_cons.1 ht with rfl | ht
    · exact List.mem_append_left _ hv
    · exact ih target ht
  | enter _ _ hl _ _ _ ihl =>
    intro target ht
    have hpath := Workspace.path_of_load hl
    rcases List.mem_cons.1 ht with rfl | ht
    · simp [hpath]
    · simpa [hpath] using ihl target ht

/-- Each module that is inlined is the module at its path. -/
theorem loaded (h : Emission space extension inProgress visited paths modules inlined) :
    ∀ module ∈ modules, space.load extension none module.path = .ok module := by
  induction h with
  | nil => simp
  | skip _ _ _ ih => exact ih
  | enter _ _ hl _ _ ihb ihl =>
    intro other ho
    rcases List.mem_append.1 ho with ho | ho
    · exact ihb other ho
    · rcases List.mem_cons.1 ho with rfl | ho
      · rwa [Workspace.path_of_load hl]
      · exact ihl other ho

/-- The modules are inlined in order. -/
theorem inOrder (h : Emission space extension inProgress visited paths modules inlined) :
    InOrder visited modules := by
  induction h with
  | nil => trivial
  | skip _ _ _ ih => exact ih
  | enter _ hv hl hbelow _ ihb ihl =>
    have hpath := Workspace.path_of_load hl
    refine InOrder.append_iff.2 ⟨ihb, hpath ▸ hbelow.notMem_of_enter hv, hbelow.covers, ?_⟩
    rwa [hpath]

/-- Only modules that the paths reach are inlined. -/
theorem reached (h : Emission space extension inProgress visited paths modules inlined) :
    ∀ module ∈ modules, ∃ path ∈ paths, space.Reaches extension path module.path := by
  induction h with
  | nil => simp
  | skip _ _ _ ih =>
    intro other ho
    obtain ⟨start, hs, hr⟩ := ih other ho
    exact ⟨start, List.mem_cons_of_mem _ hs, hr⟩
  | @enter _ _ _ path module _ _ _ _ _ _ hl _ _ ihb ihl =>
    intro other ho
    rcases List.mem_append.1 ho with ho | ho
    · obtain ⟨start, hs, hr⟩ := ihb other ho
      exact ⟨path, List.mem_cons_self, .head ⟨module, hl, hs⟩ hr⟩
    · rcases List.mem_cons.1 ho with rfl | ho
      · exact ⟨path, List.mem_cons_self, Workspace.path_of_load hl ▸ .refl⟩
      · obtain ⟨start, hs, hr⟩ := ihl other ho
        exact ⟨start, List.mem_cons_of_mem _ hs, hr⟩

/-- What an inlined module imports stands before it. -/
theorem idxOf_lt (h : Emission space extension inProgress visited paths modules inlined)
    {path target : Path} (hp : path ∈ modules.map (·.path))
    (ht : space.Imports extension path target) :
    (visited ++ modules.map (·.path)).idxOf target <
      (visited ++ modules.map (·.path)).idxOf path := by
  obtain ⟨module, hm, rfl⟩ := List.mem_map.1 hp
  exact h.inOrder.idxOf_lt hm ((Workspace.imports_iff_of_load (h.loaded module hm)).1 ht)

/-- The set of all that is inlined stays closed under imports. -/
theorem mem_of_imports (h : Emission space extension inProgress visited paths modules inlined)
    (hc : ∀ path ∈ visited, ∀ target, space.Imports extension path target → target ∈ visited)
    {path target : Path} (hp : path ∈ visited ++ modules.map (·.path))
    (ht : space.Imports extension path target) : target ∈ visited ++ modules.map (·.path) := by
  rcases List.mem_append.1 hp with hp | hp
  · exact List.mem_append_left _ (hc path hp target ht)
  · exact List.idxOf_lt_length_iff.1 ((h.idxOf_lt hp ht).trans_le List.idxOf_le_length)

/-- Whatever the paths reach is inlined in the end. -/
theorem mem_of_reaches (h : Emission space extension inProgress visited paths modules inlined)
    (hc : ∀ path ∈ visited, ∀ target, space.Imports extension path target → target ∈ visited)
    {path target : Path} (hp : path ∈ paths) (hr : space.Reaches extension path target) :
    target ∈ visited ++ modules.map (·.path) := by
  induction hr with
  | refl => exact h.covers path hp
  | tail _ ht ih => exact h.mem_of_imports hc ih ht

/-- No module imports itself, in any number of steps, when the walk starts with nothing inlined:
along imports the places in the order only decrease. -/
theorem not_transGen_self (h : Emission space extension inProgress [] paths modules inlined)
    {path : Path} (hp : path ∈ modules.map (·.path)) :
    ¬ Relation.TransGen (space.Imports extension) path path := by
  have hlt : ∀ {target : Path}, Relation.TransGen (space.Imports extension) path target →
      target ∈ modules.map (·.path) ∧
        (modules.map (·.path)).idxOf target < (modules.map (·.path)).idxOf path := by
    intro target ht
    induction ht with
    | single hi => exact ⟨by simpa using h.mem_of_imports nofun hp hi, h.idxOf_lt hp hi⟩
    | tail _ hi ih =>
      exact ⟨by simpa using h.mem_of_imports nofun ih.1 hi, (h.idxOf_lt ih.1 hi).trans ih.2⟩
  exact fun ht => Nat.lt_irrefl _ (hlt ht).2

/-- The only path of a walk is inlined last. -/
theorem getLast?_modules {path : Path} (h : Emission space extension [] [] [path] modules inlined) :
    (modules.map (·.path)).getLast? = some path := by
  cases h with
  | skip _ hv => cases hv
  | enter _ _ hl _ hrest =>
    cases hrest
    simp [Workspace.path_of_load hl]

/-- The texts that are handed up, joined, are the codes of all modules that were inlined. -/
theorem joinFilled_eq (h : Emission space extension inProgress visited paths modules inlined) :
    Text.joinFilled (inlined.map (·.2)) = Text.joinFilled (modules.map (·.stripped)) := by
  induction h with
  | nil => rfl
  | skip _ _ _ ih => exact ih
  | @enter _ _ _ _ module below later nested inlined _ _ hl _ _ ihb ihl =>
    have htrim : Text.trimmed module.stripped = module.stripped := by
      obtain ⟨text, -, rfl⟩ := Workspace.load_eq_ok_iff.1 hl
      exact Source.trimmed_without text _
    rw [List.map_cons, List.map_append, List.map_cons, Text.joinFilled_cons,
      Text.joinFilled_append, Text.joinFilled_cons, combine_eq, htrim, ihb, ihl, Text.above_assoc]

end Emission

end Bundler
