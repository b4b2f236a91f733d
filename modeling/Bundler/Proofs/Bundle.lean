import Bundler.Proofs.FileNames

/-!
# Bundles

The main statements about `Workspace.bundle`, for every workspace, extension and entry.

* `Workspace.text_of_bundle`: the text is the codes of the modules, one after the other.
* `Workspace.modules_of_bundle`: the modules are what the entry reaches, each once and after what it
  imports, the entry last.
* `Workspace.exists_bundle_iff`: there is a bundle exactly if the entry reaches only sources and no
  cycle, and the errors say which of the two is wrong.
* `Workspace.importCycle_of_bundle`: a reported cycle is a simple cycle that the entry reaches.
-/

namespace Bundler

/-- A missing import is reported with the path and the importer. -/
theorem Error.message_moduleNotFound {cwd path importer : Path} (h : importer ≠ "") :
    (Error.moduleNotFound path (some importer)).message cwd =
      "Import not found: " ++ path ++ " (imported from " ++ importer ++ ")" := by
  have hgiven : given (some importer) = some importer := Option.filter_some_pos (by simpa using h)
  unfold Error.message
  dsimp only
  rw [hgiven]

namespace Workspace

/-- The code of the module at the path is its text without the declarations, trimmed. -/
def HasCode (space : Workspace) (path : Path) (code : String) : Prop :=
  ∃ content, space.readText path = .ok content ∧ code = Source.withoutImports content

/-- The workspace that has the sources in its working directory. -/
def ofSources (sources : List (String × String)) : Workspace where
  files := ⟨(["w"], .directory) ::
    sources.map fun source => (["w", source.1], .file source.2.toUTF8)⟩
  cwd := "/w"

/-- The entry `a` imports `b` and `c`, which both import `d`; `c` has no code of its own. -/
def diamond : Workspace :=
  ofSources [("a.js", "import { b } from './b';\nimport { d } from \"./c\";\nvar a = b + d;\n"),
    ("b.js", "import { d } from './d';\nvar b = d;"), ("c.js", "import * as d from './d.js';\n"),
    ("d.js", "var d = 1;")]

/-- The entry `a` imports `b`, which imports `c`, which imports `b`. -/
def knot : Workspace :=
  ofSources [("a.js", "import b from './b';"), ("b.js", "import c from './c';"),
    ("c.js", "import b from './b';")]

/-- The bundle of the diamond: the shared module comes first and once, although the entry does not
name it, and the module without code leaves no line. -/
theorem bundle_diamond : diamond.bundle ".js" "a.js" =
    .ok ⟨"/w/a.js", "var d = 1;\nvar b = d;\nvar a = b + d;",
      ["/w/d.js", "/w/b.js", "/w/c.js", "/w/a.js"]⟩ := by decide +kernel

/-- The knot has no bundle, and the entry is not part of its cycle. -/
theorem bundle_knot : knot.bundle ".js" "a.js" =
    .error (.circularImport ["/w/b.js", "/w/c.js", "/w/b.js"]) := by decide +kernel

section
variable {space : Workspace} {extension : String} {entry : Path} {bundle : Bundle}

/-- The code at a path is what the module that is loaded from it is stripped to. -/
theorem hasCode_of_load {module : Module} {importer : Option Path} {path : Path}
    (h : space.load extension importer path = .ok module) : space.HasCode path module.stripped := by
  obtain ⟨text, ht, rfl⟩ := load_eq_ok_iff.1 h
  exact ⟨text, ht, rfl⟩

/-- The text of a bundle is the codes of its modules in their order, on lines of their own and
without those that are empty. Each module is there once, whatever the imports between them. -/
theorem text_of_bundle (h : space.bundle extension entry = .ok bundle) :
    bundle.modules.Nodup ∧ ∃ codes, List.Forall₂ space.HasCode bundle.modules codes ∧
      bundle.text = Text.joinLines (codes.filter (· ≠ "")) := by
  obtain ⟨modules, he, hm⟩ := bundle_eq_ok h
  rw [hm]
  refine ⟨he.inOrder.nodup.1, modules.map (·.stripped), ?_, ?_⟩
  · rw [List.forall₂_map_left_iff, List.forall₂_map_right_iff, List.forall₂_same]
    exact fun module hmem => hasCode_of_load (he.loaded module hmem)
  · have := he.joinFilled_eq
    rwa [List.map_cons, List.map_nil, Text.joinFilled_singleton] at this

/-- The text of the diamond is its four codes without the empty one. -/
theorem text_of_bundle_diamond : ∃ codes,
    List.Forall₂ diamond.HasCode ["/w/d.js", "/w/b.js", "/w/c.js", "/w/a.js"] codes ∧
      "var d = 1;\nvar b = d;\nvar a = b + d;" = Text.joinLines (codes.filter (· ≠ "")) :=
  (text_of_bundle bundle_diamond).2

/-- The modules of a bundle are the paths that the entry reaches. Each of them is there once, behind
all that it imports, and the entry is the last. -/
theorem modules_of_bundle (h : space.bundle extension entry = .ok bundle) :
    bundle.modules.Nodup ∧
    (∀ path, path ∈ bundle.modules ↔ space.Reaches extension (space.absolute entry) path) ∧
    (∀ path ∈ bundle.modules, ∀ target, space.Imports extension path target →
      bundle.modules.idxOf target < bundle.modules.idxOf path) ∧
    bundle.modules.getLast? = some (space.absolute entry) := by
  obtain ⟨modules, he, hm⟩ := bundle_eq_ok h
  rw [hm]
  refine ⟨he.inOrder.nodup.1, fun path => ⟨fun hp => ?_, fun hr => ?_⟩, fun path hp target ht => ?_,
    he.getLast?_modules⟩
  · obtain ⟨module, hmem, rfl⟩ := List.mem_map.1 hp
    obtain ⟨start, hs, hr⟩ := he.reached module hmem
    exact List.mem_singleton.1 hs ▸ hr
  · exact he.mem_of_reaches nofun List.mem_cons_self hr
  · exact he.idxOf_lt hp ht

/-- The diamond has its four modules once each, and they are what its entry reaches. -/
theorem modules_of_bundle_diamond :
    ["/w/d.js", "/w/b.js", "/w/c.js", "/w/a.js"].Nodup ∧
      ∀ path, path ∈ ["/w/d.js", "/w/b.js", "/w/c.js", "/w/a.js"] ↔
        diamond.Reaches ".js" (diamond.absolute "a.js") path :=
  have h := modules_of_bundle bundle_diamond
  ⟨h.1, h.2.1⟩

/-- The way at the entry, where no module is in progress, leads to the cause of every failure. -/
theorem cause_of_bundle (rooted : space.cwd.isAbsolute = true) {error : Error}
    (h : space.bundle extension entry = .error error) :
    Cause space extension (space.absolute entry) error := by
  rcases bundle_eq_error h with ⟨_, hf⟩ | ⟨entered, _, _, hd, hlen, -⟩
  · exact hf.cause .root
  · have hle := hd.length_le rooted
    omega

/-- In a workspace whose working directory is absolute there is a bundle of an entry exactly if it
reaches only sources, and no cycle. A cycle is reported only if it reaches one, and a missing import
only if it reaches the importer, which names a path where nothing stands. -/
theorem exists_bundle_iff (rooted : space.cwd.isAbsolute = true) :
    ((∃ bundle, space.bundle extension entry = .ok bundle) ↔
      (∀ path, space.Reaches extension (space.absolute entry) path → space.IsSource path) ∧
        ¬ space.Cyclic extension (space.absolute entry)) ∧
    (∀ cycle, space.bundle extension entry = .error (.circularImport cycle) →
      space.Cyclic extension (space.absolute entry)) ∧
    (∀ path importer, space.bundle extension entry = .error (.moduleNotFound path (some importer)) →
      (Error.moduleNotFound path (some importer)).message space.cwd =
          "Import not found: " ++ path ++ " (imported from " ++ importer ++ ")" ∧
        space.Reaches extension (space.absolute entry) importer ∧
        space.Imports extension importer path ∧ space.exists? path = false) := by
  have hcyclic : ∀ {cycle}, Cause space extension (space.absolute entry) (.circularImport cycle) →
      space.Cyclic extension (space.absolute entry) := by
    intro cycle h
    obtain ⟨hc, path, hhead, hr⟩ := h.of_circularImport
    exact ⟨path, hr, hc.transGen hhead⟩
  refine ⟨⟨?_, ?_⟩, fun _ h => hcyclic (cause_of_bundle rooted h), fun path importer h => ?_⟩
  · rintro ⟨bundle, h⟩
    obtain ⟨modules, he, -⟩ := bundle_eq_ok h
    have hin : ∀ {path}, space.Reaches extension (space.absolute entry) path →
        path ∈ modules.map (·.path) := fun hr => he.mem_of_reaches nofun List.mem_cons_self hr
    refine ⟨fun path hr => ?_, fun ⟨path, hr, ht⟩ => he.not_transGen_self (hin hr) ht⟩
    obtain ⟨module, hm, rfl⟩ := List.mem_map.1 (hin hr)
    exact isSource_iff_load.2 ⟨module, he.loaded module hm⟩
  · rintro ⟨hsource, hacyclic⟩
    cases h : space.bundle extension entry with
    | ok bundle => exact ⟨bundle, rfl⟩
    | error error =>
      have hcause := cause_of_bundle rooted h
      cases hcause with
      | cycle hc hhead hr => exact absurd ⟨_, hr, hc.transGen hhead⟩ hacyclic
      | @unread path importer _ hr _ hl =>
        obtain ⟨module, hm⟩ := isSource_iff_load.1 (hsource path hr)
        cases hl.symm.trans hm
  · obtain ⟨hr, hp, hx⟩ := (cause_of_bundle rooted h).of_moduleNotFound
    exact ⟨Error.message_moduleNotFound hp.isSource.ne_empty, hr, hp, hx⟩

/-- The diamond has a bundle, hence no file is missing and there is no cycle. -/
theorem exists_bundle_iff_diamond : diamond.cwd.isAbsolute = true ∧
    (∀ path, diamond.Reaches ".js" (diamond.absolute "a.js") path → diamond.IsSource path) ∧
      ¬ diamond.Cyclic ".js" (diamond.absolute "a.js") :=
  ⟨rfl, (exists_bundle_iff rfl).1.1 ⟨_, bundle_diamond⟩⟩

/-- A reported cycle is a simple cycle of imports between files, and the entry reaches the path that
it starts with. -/
theorem importCycle_of_bundle {cycle : List Path}
    (h : space.bundle extension entry = .error (.circularImport cycle)) :
    space.ImportCycle extension cycle ∧
      ∃ path, cycle.head? = some path ∧ space.Reaches extension (space.absolute entry) path := by
  rcases bundle_eq_error h with ⟨_, hf⟩ | ⟨_, _, _, -, -, he⟩
  · exact (hf.cause .root).of_circularImport
  -- A walk that runs out of depth reports a missing module, and never a cycle.
  · cases he

/-- The cycle of the knot is below its entry. -/
theorem importCycle_of_bundle_knot :
    knot.ImportCycle ".js" ["/w/b.js", "/w/c.js", "/w/b.js"] ∧
      ∃ path, ["/w/b.js", "/w/c.js", "/w/b.js"].head? = some path ∧
        knot.Reaches ".js" (knot.absolute "a.js") path :=
  importCycle_of_bundle bundle_knot

end

end Workspace

end Bundler
