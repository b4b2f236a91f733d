import Bundler.Proofs.Bundle

/-!
# What is discovered where

A walk over a list of paths inlines a module at the first path that leads to it. At a place in the
list that is discovered which neither was inlined before nor is reached from a path in front of the
place (`Workspace.Discovered`), so a path is passed over if it is not discovered where it stands.

`Discoveries` says of a walk where something is discovered and what. It follows the rules of a walk
that succeeds (`Discoveries.skip`, `Discoveries.enter`), because all that is inlined then is what
was inlined before and what the paths reach (`Emission.mem_iff`). `Resolver.resolve_discovers` has it
for a resolver in any state that is closed under imports.
-/

namespace Bundler

namespace Workspace

variable {space : Workspace} {extension : String} {visited known paths rest segment : List Path}
  {first path : Path} {place : Nat}

/-- What modules of the set import is in the set as well. -/
def ImportClosed (space : Workspace) (extension : String) (visited : List Path) : Prop :=
  ∀ path ∈ visited, ∀ target, space.Imports extension path target → target ∈ visited

/-- The path is discovered at the place in the list: it was not inlined before, and no path in front
of the place reaches it. In particular it does not stand there itself. -/
def Discovered (space : Workspace) (extension : String) (visited paths : List Path) (place : Nat)
    (path : Path) : Prop :=
  path ∉ visited ∧ ∀ earlier ∈ paths.take place, ¬ space.Reaches extension earlier path

/-- The segment is all that the path at the place reaches and that is discovered there, with the path
itself at the end. -/
def IsSegment (space : Workspace) (extension : String) (visited paths : List Path) (place : Nat)
    (segment : List Path) : Prop :=
  ∃ start, paths[place]? = some start ∧ segment.getLast? = some start ∧
    ∀ path, path ∈ segment ↔
      space.Discovered extension visited paths place path ∧ space.Reaches extension start path

/-- All that a set reaches is in it, if it is closed. -/
theorem ImportClosed.mem_of_reaches (hc : space.ImportClosed extension visited)
    (hf : first ∈ visited) (hr : space.Reaches extension first path) : path ∈ visited := by
  induction hr with
  | refl => exact hf
  | tail _ hi ih => exact hc _ ih _ hi

/-- A closed set stays closed with all that a path reaches. -/
theorem ImportClosed.add (hc : space.ImportClosed extension visited)
    (hk : ∀ path, path ∈ known ↔ path ∈ visited ∨ space.Reaches extension first path) :
    space.ImportClosed extension known := by
  intro path hp target hi
  rcases (hk path).1 hp with hv | hr
  · exact (hk target).2 (.inl (hc path hv target hi))
  · exact (hk target).2 (.inr (hr.tail hi))

/-- A module reaches itself and what its imports reach. -/
theorem reaches_iff_of_load {module : Module} (h : space.load extension none first = .ok module) :
    space.Reaches extension first path ↔
      (∃ start ∈ module.dependencies, space.Reaches extension start path) ∨ path = first := by
  unfold Reaches
  rw [Relation.ReflTransGen.cases_head_iff, or_comm, eq_comm]
  simp only [imports_iff_of_load h]

/-- At the first place all is discovered that was not inlined before. -/
theorem discovered_zero : space.Discovered extension visited paths 0 path ↔ path ∉ visited := by
  simp [Discovered]

/-- Behind the first path the same is discovered as if all that it reaches had been inlined. -/
theorem discovered_succ
    (hk : ∀ path, path ∈ known ↔ path ∈ visited ∨ space.Reaches extension first path) :
    space.Discovered extension visited (first :: rest) (place + 1) path ↔
      space.Discovered extension known rest place path := by
  simp only [Discovered, List.take_succ_cons, List.forall_mem_cons, hk, not_or, and_assoc]

/-- The segment at the first place is what the first path reaches and what was not inlined before. -/
theorem isSegment_zero (hlast : segment.getLast? = some first)
    (hs : ∀ path, path ∈ segment ↔ path ∉ visited ∧ space.Reaches extension first path) :
    space.IsSegment extension visited (first :: rest) 0 segment :=
  ⟨first, rfl, hlast, fun path => by rw [hs, discovered_zero]⟩

/-- Behind the first path the segments are the same as if all that it reaches had been inlined. -/
theorem isSegment_succ
    (hk : ∀ path, path ∈ known ↔ path ∈ visited ∨ space.Reaches extension first path) :
    space.IsSegment extension visited (first :: rest) (place + 1) segment ↔
      space.IsSegment extension known rest place segment := by
  simp only [IsSegment, List.getElem?_cons_succ, discovered_succ hk]

end Workspace

/-- The places in the list at which the path that stands there is discovered, in their order, these
paths, and their segments. -/
structure Discoveries (space : Workspace) (extension : String) (visited paths : List Path)
    (places : List Nat) (keys : List Path) (segments : List (List Path)) : Prop where
  sorted : places.Pairwise (· < ·)
  mem_iff : ∀ place, place ∈ places ↔
    ∃ path, paths[place]? = some path ∧ space.Discovered extension visited paths place path
  keys_eq : places.map (paths[·]?) = keys.map some
  segments : List.Forall₂ (space.IsSegment extension visited paths) places segments

section
variable {space : Workspace} {extension : String} {visited known paths rest segment : List Path}
  {first path : Path} {places : List Nat} {keys : List Path} {segments : List (List Path)}

namespace Discoveries

/-- In no list nothing is discovered. -/
theorem nil : Discoveries space extension visited [] [] [] [] where
  sorted := .nil
  mem_iff place := by simp
  keys_eq := rfl
  segments := .nil

/-- Behind the first path the places move by one, if all that it reaches counts as inlined. -/
theorem behind (h : Discoveries space extension known rest places keys segments)
    (hk : ∀ path, path ∈ known ↔ path ∈ visited ∨ space.Reaches extension first path) :
    (places.map (· + 1)).Pairwise (· < ·) ∧
    (∀ place, place + 1 ∈ places.map (· + 1) ↔ ∃ path, (first :: rest)[place + 1]? = some path ∧
      space.Discovered extension visited (first :: rest) (place + 1) path) ∧
    (places.map (· + 1)).map ((first :: rest)[·]?) = keys.map some ∧
    List.Forall₂ (space.IsSegment extension visited (first :: rest)) (places.map (· + 1))
      segments := by
  refine ⟨?_, fun place => ?_, ?_, ?_⟩
  · exact List.pairwise_map.2 (h.sorted.imp Nat.succ_lt_succ)
  · rw [List.mem_map_of_injective fun _ _ => Nat.succ.inj, h.mem_iff]
    simp only [List.getElem?_cons_succ, Workspace.discovered_succ hk]
  · rw [List.map_map, ← h.keys_eq]
    rfl
  · rw [List.forall₂_map_left_iff]
    exact h.segments.imp fun place segment => (Workspace.isSegment_succ hk).2

/-- A path that is inlined already is passed over. -/
theorem skip (hc : space.ImportClosed extension visited) (hv : first ∈ visited)
    (h : Discoveries space extension visited rest places keys segments) :
    Discoveries space extension visited (first :: rest) (places.map (· + 1)) keys segments := by
  have hk : ∀ path, path ∈ visited ↔ path ∈ visited ∨ space.Reaches extension first path :=
    fun path => (or_iff_left_of_imp (hc.mem_of_reaches hv)).symm
  obtain ⟨hsorted, hmem, hkeys, hsegments⟩ := h.behind hk
  refine ⟨hsorted, fun place => ?_, hkeys, hsegments⟩
  cases place with
  | zero => simp [Workspace.discovered_zero, hv]
  | succ place => exact hmem place

/-- A path that is entered is discovered with all that it reaches and that was not inlined. -/
theorem enter (hv : first ∉ visited)
    (hk : ∀ path, path ∈ known ↔ path ∈ visited ∨ space.Reaches extension first path)
    (hlast : segment.getLast? = some first)
    (hs : ∀ path, path ∈ segment ↔ path ∉ visited ∧ space.Reaches extension first path)
    (h : Discoveries space extension known rest places keys segments) :
    Discoveries space extension visited (first :: rest) (0 :: places.map (· + 1)) (first :: keys)
      (segment :: segments) := by
  obtain ⟨hsorted, hmem, hkeys, hsegments⟩ := h.behind hk
  refine ⟨List.pairwise_cons.2 ⟨by simp, hsorted⟩, fun place => ?_, ?_,
    .cons (Workspace.isSegment_zero hlast hs) hsegments⟩
  · cases place with
    | zero => simp [Workspace.discovered_zero, hv]
    | succ place => rw [← hmem place, List.mem_cons, or_iff_right (Nat.succ_ne_zero place)]
  · rw [List.map_cons, List.map_cons, hkeys]
    rfl

end Discoveries

namespace Emission

variable {inProgress : List Path} {modules : List Module} {inlined : Inlined}

/-- In the end all is inlined that was inlined before, and all that the paths reach. -/
theorem mem_iff (h : Emission space extension inProgress visited paths modules inlined)
    (hc : space.ImportClosed extension visited) :
    path ∈ visited ++ modules.map (·.path) ↔
      path ∈ visited ∨ ∃ start ∈ paths, space.Reaches extension start path := by
  constructor
  · intro hp
    rcases List.mem_append.1 hp with hv | hm
    · exact .inl hv
    · obtain ⟨module, hmem, rfl⟩ := List.mem_map.1 hm
      exact .inr (h.reached module hmem)
  · rintro (hv | ⟨start, hs, hr⟩)
    · exact List.mem_append_left _ hv
    · exact h.mem_of_reaches hc hs hr

/-- The imports of a module and the module itself are what it reaches, without what was inlined
before. -/
theorem segment_iff {module : Module} (hv : first ∉ visited)
    (hl : space.load extension none first = .ok module)
    (h : Emission space extension (inProgress ++ [first]) visited module.dependencies modules
      inlined)
    (hc : space.ImportClosed extension visited) :
    (∀ path, path ∈ visited ++ modules.map (·.path) ++ [first] ↔
      path ∈ visited ∨ space.Reaches extension first path) ∧
    ∀ path, path ∈ modules.map (·.path) ++ [first] ↔
      path ∉ visited ∧ space.Reaches extension first path := by
  have hk : ∀ path, path ∈ visited ++ modules.map (·.path) ++ [first] ↔
      path ∈ visited ∨ space.Reaches extension first path := by
    intro path
    rw [List.mem_append, List.mem_singleton, h.mem_iff hc, or_assoc,
      ← Workspace.reaches_iff_of_load hl]
  refine ⟨hk, fun path => ⟨fun hp => ?_, fun ⟨hn, hr⟩ => ?_⟩⟩
  · have hnew : path ∉ visited := by
      rcases List.mem_append.1 hp with hm | hf
      · obtain ⟨module, hmem, rfl⟩ := List.mem_map.1 hm
        exact h.inOrder.nodup.2 module hmem
      · rwa [List.mem_singleton.1 hf]
    have hall := List.mem_append_right visited hp
    rw [← List.append_assoc, hk] at hall
    exact ⟨hnew, hall.resolve_left hnew⟩
  · have hall := (hk path).2 (.inr hr)
    rw [List.append_assoc] at hall
    exact (List.mem_append.1 hall).resolve_left hn

/-- A walk that succeeds discovers paths, hands up one text for each of them, and inlines what it
discovers with them. -/
theorem discoveries (h : Emission space extension inProgress visited paths modules inlined)
    (hc : space.ImportClosed extension visited) : ∃ places segments,
      Discoveries space extension visited paths places (inlined.map (·.1)) segments ∧
        modules.map (·.path) = segments.flatten := by
  induction h with
  | nil => exact ⟨[], [], .nil, rfl⟩
  | skip _ hv _ ih =>
    obtain ⟨places, segments, hd, hm⟩ := ih hc
    exact ⟨_, segments, hd.skip hc hv, hm⟩
  | @enter _ visited _ path module below later _ _ _ hv hl hb _ _ ih =>
    obtain ⟨hk, hs⟩ := hb.segment_iff hv hl hc
    obtain ⟨places, segments, hd, hm⟩ := ih (hc.add hk)
    refine ⟨_, (below.map (·.path) ++ [path]) :: segments,
      hd.enter hv hk List.getLast?_concat hs, ?_⟩
    rw [List.map_append, List.map_cons, hm, Workspace.path_of_load hl, List.flatten_cons,
      List.append_assoc, List.singleton_append]

end Emission

end

/-- A resolver emits by first discovery. The keys of a result are the paths that are discovered
where they stand, in their order, and for each of them the order grows by one segment: what is
discovered there and reached from the key, which is the last. Then all is visited that was visited
before, and all that the paths reach. -/
theorem Resolver.resolve_discovers {space : Workspace} {extension : String}
    {importer : Option Path} {paths : List Path} {resolver after : Resolver} {inlined : Inlined}
    (closed : space.ImportClosed extension resolver.visited)
    (h : resolver.resolve space extension importer paths = (after, .ok inlined)) :
    (∃ places segments,
      Discoveries space extension resolver.visited paths places (inlined.map (·.1)) segments ∧
      after.order = resolver.order ++ segments.flatten ∧ segments.flatten.Nodup) ∧
    ∀ path, path ∈ after.visited ↔
      path ∈ resolver.visited ∨ ∃ start ∈ paths, space.Reaches extension start path := by
  have hout : Outcome space extension _ importer paths resolver _ :=
    resolve_outcome importer paths resolver
  rw [h] at hout
  cases hout with
  | emission he =>
    obtain ⟨places, segments, hd, hm⟩ := he.discoveries closed
    exact ⟨⟨places, segments, hd, congrArg (resolver.order ++ ·) hm, hm ▸ he.inOrder.nodup.1⟩,
      fun path => he.mem_iff closed⟩

/-- Where the module that all import is inlined, the other two are discovered behind the one without
code, which the paths name twice, both at the entry. -/
theorem Resolver.resolve_discovers_diamond :
    Workspace.diamond.ImportClosed ".js" ["/w/d.js"] ∧
    resolve ⟨["/w/d.js"], ["/w/d.js"], []⟩ .diamond ".js" none
        ["/w/c.js", "/w/d.js", "/w/c.js", "/w/a.js", "/w/b.js"] =
      (⟨["/w/d.js", "/w/c.js", "/w/b.js", "/w/a.js"],
        ["/w/d.js", "/w/c.js", "/w/b.js", "/w/a.js"], []⟩,
        .ok [("/w/c.js", ""), ("/w/a.js", "var b = d;\nvar a = b + d;")]) ∧
    ∃ places segments, Discoveries .diamond ".js" ["/w/d.js"]
        ["/w/c.js", "/w/d.js", "/w/c.js", "/w/a.js", "/w/b.js"] places ["/w/c.js", "/w/a.js"]
          segments ∧
      ["/w/d.js", "/w/c.js", "/w/b.js", "/w/a.js"] = ["/w/d.js"] ++ segments.flatten := by
  have hload : Workspace.diamond.load ".js" none "/w/d.js" =
      .ok ⟨"/w/d.js", "var d = 1;", [], [], "var d = 1;"⟩ := by decide +kernel
  have hclosed : Workspace.diamond.ImportClosed ".js" ["/w/d.js"] := by
    intro path hp target hi
    rw [List.mem_singleton.1 hp, Workspace.imports_iff_of_load hload] at hi
    cases hi
  have hresolve : resolve ⟨["/w/d.js"], ["/w/d.js"], []⟩ .diamond ".js" none
      ["/w/c.js", "/w/d.js", "/w/c.js", "/w/a.js", "/w/b.js"] =
        (⟨["/w/d.js", "/w/c.js", "/w/b.js", "/w/a.js"],
          ["/w/d.js", "/w/c.js", "/w/b.js", "/w/a.js"], []⟩,
          .ok [("/w/c.js", ""), ("/w/a.js", "var b = d;\nvar a = b + d;")]) := by
    decide +kernel
  obtain ⟨⟨places, segments, hd, horder, -⟩, -⟩ := resolve_discovers hclosed hresolve
  exact ⟨hclosed, hresolve, places, segments, hd, horder⟩

end Bundler
