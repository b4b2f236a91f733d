import Bundler.Proofs.Ancestors
import Bundler.Proofs.Dependence
import Bundler.Proofs.Display
import Bundler.Settings
import Mathlib.Data.List.Nodup
import Mathlib.Data.List.TakeWhile

/-!
# The identity of a module

A module is known by its path, and two paths are the same module exactly if the texts are equal. So
the path that an import is resolved to has to say where the module is and nothing else.

* `Location.along` walks along the components of a path on a stack, as `importedLocation` does for
  an import: first the directory, then the specifier with its extension (`Path.completed`).
* `identifies_resolveSpecifier`: an import is resolved to the one path of the location where this
  walk ends (`Path.Identifies`). Hence all imports that lead there are resolved to the same path,
  and no others (`Path.Identifies.eq_iff`), and it makes no difference whether the extension is
  written out (`Path.completed_append`).
* `Workspace.nodup_locations`, `Workspace.mem_locations`: so the modules of a bundle stand at
  different places, and there is one at each place where an import leads.

The exception are paths that start with exactly two slashes, which keep them. The path of no module
does if neither the entry nor a specifier does (`Workspace.root_of_mem_modules`).
-/

namespace Bundler

/-! ## Walks on a stack of components -/

namespace Location

/-- Where a component leads from a location: an empty one and a dot stay, two dots go up, and the
root is its own parent. -/
def follow (location : Location) (component : String) : Location :=
  if component = "" ∨ component = "." then location
  else if component = ".." then location.dropLast
  else location ++ [component]

/-- Where the walk along the components of a path ends. -/
def along (location : Location) (path : Path) : Location :=
  path.components.foldl follow location

end Location

namespace Path

variable {walked : List String} {path base : Path}

/-- A step on the stack is the step on the names in their order. -/
theorem reverse_enter {component : String} (hw : ∀ name ∈ walked, IsName name) :
    (enter true walked component).reverse = Location.follow walked.reverse component := by
  unfold Location.follow
  split
  · next hstay => rw [enter_of_stay (by simpa using hstay)]
  · next hmove =>
    split
    · next hup => rw [hup, enter_up hw, List.dropLast_reverse]
    · next hdown => rw [enter_of_down (by simpa using hmove) hdown, List.reverse_cons]

/-- So is a walk, because there are only names on the stack. -/
theorem reverse_foldl_enter {components : List String} (hw : ∀ name ∈ walked, IsName name)
    (hc : ∀ component ∈ components, '/' ∉ component.toList) :
    (components.foldl (enter true) walked).reverse =
      components.foldl Location.follow walked.reverse := by
  induction components generalizing walked with
  | nil => rfl
  | cons component rest ih =>
    have hfirst := hc component List.mem_cons_self
    rw [List.foldl_cons, List.foldl_cons, ← reverse_enter hw]
    exact ih (isName_of_mem_enter hw hfirst) fun other ho => hc other (List.mem_cons_of_mem _ ho)

/-- An absolute path walks from the root along its components. -/
theorem walk_eq_along (rooted : path.isAbsolute = true) : path.walk = Location.along [] path := by
  have hroot : ∀ name ∈ ([] : List String), IsName name := nofun
  rw [walk, rooted, reverse_foldl_enter hroot fun _ => notMem_of_mem_components]
  rfl

/-- Seen from an absolute directory, a path walks on from there, unless it is absolute itself. -/
theorem walk_absolute_eq_along (rooted : base.isAbsolute = true) : (base.absolute path).walk =
    Location.along (if path.isAbsolute then [] else Location.along [] base) path := by
  have hstart : ∀ name ∈ (if path.isAbsolute then [] else base.walk.reverse), IsName name := by
    split
    · exact nofun
    · exact fun name hm => isName_of_mem_walk rooted name (List.mem_reverse.1 hm)
  rw [walk_absolute rooted, reverse_foldl_enter hstart fun _ => notMem_of_mem_components,
    Location.along, ← walk_eq_along rooted]
  split <;> simp

/-! ## Specifiers with their extension -/

variable {extension : String} {specifier : Path}

/-- The path with the extension behind it, unless it has one. -/
def completed (path : Path) (extension : String) : Path :=
  if path.extension = "" then path ++ extension else path

/-- An extension starts with a dot. -/
theorem exists_of_isExtension (h : isExtension extension = true) :
    ∃ more, extension.toList = '.' :: more := by
  unfold isExtension at h
  exact List.head?_eq_some_iff.1 (eq_of_beq (Bool.and_eq_true_iff.1 h).1)

/-- So a text that is an extension is not absolute. -/
theorem isAbsolute_of_isExtension (h : isExtension extension = true) :
    isAbsolute extension = false := by
  obtain ⟨more, hmore⟩ := exists_of_isExtension h
  unfold isAbsolute
  rw [hmore]
  rfl

/-- An extension does not make a path absolute. -/
theorem isAbsolute_completed (h : isExtension extension = true) :
    (specifier.completed extension).isAbsolute = specifier.isAbsolute := by
  unfold completed
  split
  · by_cases hempty : specifier = ""
    · rw [hempty, String.empty_append]
      exact isAbsolute_of_isExtension h
    · exact isAbsolute_append hempty
  · rfl

/-- An extension does not bring a second slash to the front. -/
theorem root_completed_ne (h : isExtension extension = true) (plain : specifier.root ≠ "//") :
    (specifier.completed extension).root ≠ "//" := by
  have hrelative := isAbsolute_of_isExtension h
  unfold completed
  split
  · by_cases hempty : specifier = ""
    · rw [hempty, String.empty_append, root_of_relative hrelative]
      decide
    · exact root_append_ne plain hempty (.inr hrelative)
  · exact plain

/-- What is added to a path without a slash is added to its last component. -/
theorem name_append {added : String} (h : '/' ∉ added.toList) :
    name (path ++ added) = path.name ++ added := by
  apply String.toList_injective
  unfold name
  rw [String.toList_ofList, String.toList_append, List.reverse_append,
    List.takeWhile_append_of_pos (ne_slash_of_mem_reverse h)]
  simp

/-- A path has an extension if there is a dot behind the dots that its last component starts
with. -/
theorem extension_ne_empty (h : '.' ∈ path.name.toList.dropWhile (· = '.')) :
    path.extension ≠ "" := by
  unfold Path.extension
  dsimp only
  rw [if_pos (List.contains_iff_mem.2 h)]
  simp [String.ext_iff]

/-- A path that the extension is added to has an extension, if there is more than dots before it:
nothing is added to it then. -/
theorem completed_append (h : isExtension extension = true) (hslash : '/' ∉ extension.toList)
    (hname : ∃ c ∈ specifier.name.toList, c ≠ '.') (hnone : specifier.extension = "") :
    completed (specifier ++ extension) extension = specifier.completed extension := by
  have hdot : Path.extension (specifier ++ extension) ≠ "" := by
    apply extension_ne_empty
    obtain ⟨more, hmore⟩ := exists_of_isExtension h
    obtain ⟨c, hc, hne⟩ := hname
    have hplain : specifier.name.toList.dropWhile (· = '.') ≠ [] := fun hall =>
      hne (of_decide_eq_true (List.dropWhile_eq_nil_iff.1 hall c hc))
    rw [name_append hslash, String.toList_append, List.dropWhile_append,
      if_neg (by simpa using hplain), hmore]
    simp
  rw [completed, if_neg hdot, completed, if_pos hnone]

/-- Behind dots alone the extension counts as a name, and gets another one. -/
example : completed ("." ++ ".js") ".js" ≠ completed "." ".js" := by decide

end Path

/-! ## The path that an import is resolved to -/

/-- Where an import leads: on from the directory along the specifier with its extension, or on from
the root if the specifier is absolute. -/
def importedLocation (base : Path) (extension : String) (specifier : Path) : Location :=
  Location.along (if specifier.isAbsolute then [] else Location.along [] base)
    (specifier.completed extension)

/-- The path says where the location is and nothing else: it is written with the names on the way
there, and it stays as it is from wherever it is seen. -/
structure Path.Identifies (path : Path) (location : Location) : Prop where
  isAbsolute : path.isAbsolute = true
  absolute_eq : ∀ directory : Path, directory.absolute path = path
  isName : ∀ name ∈ location, Path.IsName name
  eq_path : path = location.path

section
variable {cwd base specifier : Path} {extension : String}

/-- The working directory makes no difference to an import from an absolute directory. -/
theorem resolveSpecifier_eq (rooted : base.isAbsolute = true) :
    resolveSpecifier cwd base extension specifier =
      base.absolute (specifier.completed extension) := by
  unfold resolveSpecifier Path.absolute
  dsimp only
  rw [← Path.completed, Path.join, if_pos (Path.isAbsolute_join rooted)]

/-- An import is resolved to a path that walks to where the import leads. -/
theorem walk_resolveSpecifier (rooted : base.isAbsolute = true)
    (hx : isExtension extension = true) :
    (resolveSpecifier cwd base extension specifier).walk =
      importedLocation base extension specifier := by
  rw [resolveSpecifier_eq rooted, Path.walk_absolute_eq_along rooted,
    Path.isAbsolute_completed hx, importedLocation]

/-- Only a directory or a specifier that starts with exactly two slashes leads to a path that
does. -/
theorem root_resolveSpecifier_ne (rooted : base.isAbsolute = true)
    (hx : isExtension extension = true) (single : base.root ≠ "//")
    (plain : specifier.root ≠ "//") :
    (resolveSpecifier cwd base extension specifier).root ≠ "//" := by
  rw [resolveSpecifier_eq rooted]
  exact Path.root_absolute_ne rooted single (Path.root_completed_ne hx plain)

/-- An import is resolved to the identity of the location where it leads. -/
theorem identifies_resolveSpecifier (rooted : base.isAbsolute = true)
    (hx : isExtension extension = true) (single : base.root ≠ "//")
    (plain : specifier.root ≠ "//") :
    (resolveSpecifier cwd base extension specifier).Identifies
      (importedLocation base extension specifier) := by
  have hc : (resolveSpecifier cwd base extension specifier).Canonical := by
    rw [resolveSpecifier_eq rooted]
    exact Path.canonical_absolute rooted
  have hwalk : (resolveSpecifier cwd base extension specifier).walk = _ :=
    walk_resolveSpecifier rooted hx
  refine ⟨hc.isAbsolute, fun _ => hc.absolute_eq, ?_, ?_⟩
  · rw [← hwalk]
    exact hc.mem_spellings.1
  · rw [← hwalk]
    exact hc.eq_path (root_resolveSpecifier_ne rooted hx single plain)

end

/-- Two paths that identify locations are the same exactly if the locations are. -/
theorem Path.Identifies.eq_iff {path other : Path} {location place : Location}
    (h : path.Identifies location) (ho : other.Identifies place) :
    path = other ↔ location = place := by
  constructor
  · rintro rfl
    have hpath : ∀ {names : Location}, path.Identifies names → path.walk = names := fun hi =>
      Path.walk_of_mem_spellings hi.isName (by rw [hi.eq_path]; exact List.mem_cons_self)
    rw [← hpath h, ← hpath ho]
  · rintro rfl
    rw [h.eq_path, ← ho.eq_path]

/-! ## The modules of a bundle -/

/-- In front of the last name of a canonical path there are not exactly two slashes, unless the path
starts with them. -/
theorem Path.Canonical.root_parent_ne {path : Path} (h : path.Canonical)
    (single : path.root ≠ "//") : path.parent.root ≠ "//" := by
  obtain ⟨hn, -⟩ := h.mem_spellings
  have habove : ∀ name ∈ path.walk.dropLast, Path.IsName name := fun name hm =>
    hn name (List.dropLast_subset _ hm)
  have hparent : path.parent = Location.path path.walk.dropLast := by
    have hspelled := Path.parent_spelled (.inl rfl) hn
    rwa [Location.spelled, Location.spelled, String.empty_append, String.empty_append,
      ← h.eq_path single] at hspelled
  rw [hparent, (Path.root_path habove).1]
  decide

namespace Workspace

variable {space : Workspace} {extension : String} {entry path target : Path} {bundle : Bundle}

/-- No declaration in the module at the path names a path that starts with exactly two slashes. -/
def NamesPlainly (space : Workspace) (path : Path) : Prop :=
  ∀ content, space.readText path = .ok content →
    ∀ declaration ∈ Source.imports content, declaration.specifier.root ≠ "//"

instance (space : Workspace) (path : Path) : Decidable (space.NamesPlainly path) :=
  match h : space.readText path with
  | .error _ => isTrue fun _ hcontent => nomatch h.symm.trans hcontent
  | .ok content =>
    decidable_of_iff
      (∀ declaration ∈ Source.imports content, declaration.specifier.root ≠ "//")
      ⟨fun hall _ hcontent => Except.ok.inj (h.symm.trans hcontent) ▸ hall,
        fun hall => hall content h⟩

/-- A module of a bundle stands where its path walks to. -/
theorem locate_of_mem_modules (rooted : space.cwd.isAbsolute = true)
    (h : space.bundle extension entry = .ok bundle) (hp : path ∈ bundle.modules) :
    space.locate path = .ok path.walk := by
  obtain ⟨content, hc⟩ := exists_content_of_mem_modules h hp
  obtain ⟨location, hl, -⟩ := content?_eq_some.1 hc
  have hwalk := walk_of_locate rooted hl
  rw [absolute, (canonical_of_mem_modules rooted h hp).absolute_eq] at hwalk
  rw [hl, hwalk]

/-- The path of a module does not start with exactly two slashes, if neither the entry nor a
specifier does: this is kept along every import. -/
theorem root_of_mem_modules (rooted : space.cwd.isAbsolute = true)
    (hx : isExtension extension = true) (h : space.bundle extension entry = .ok bundle)
    (single : (space.absolute entry).root ≠ "//")
    (plain : ∀ path ∈ bundle.modules, space.NamesPlainly path) (hp : path ∈ bundle.modules) :
    path.root ≠ "//" := by
  have hreached := (mem_modules_iff h).1 hp
  clear hp
  induction hreached with
  | refl => exact single
  | @tail importer target hr hi ih =>
    have himporter : importer ∈ bundle.modules := (mem_modules_iff h).2 hr
    have hc := canonical_of_mem_modules rooted h himporter
    obtain ⟨content, hcontent, declaration, hd, rfl⟩ := imports_iff.1 hi
    exact root_resolveSpecifier_ne hc.parent.1.isAbsolute hx (hc.root_parent_ne ih)
      (plain importer himporter content hcontent declaration hd)

/-- The modules of a bundle stand at different places. -/
theorem nodup_locations (rooted : space.cwd.isAbsolute = true)
    (h : space.bundle extension entry = .ok bundle)
    (single : ∀ path ∈ bundle.modules, path.root ≠ "//") :
    (bundle.modules.map space.locate).Nodup := by
  obtain ⟨modules, he, hm⟩ := bundle_eq_ok h
  refine List.Nodup.map_on (fun path hp other ho hsame => ?_) (hm ▸ he.inOrder.nodup.1)
  rw [locate_of_mem_modules rooted h hp, locate_of_mem_modules rooted h ho] at hsame
  exact (canonical_of_mem_modules rooted h hp).eq_of_walk_eq
    (canonical_of_mem_modules rooted h ho) (single path hp) (single other ho)
    (Except.ok.inj hsame)

/-- Where an import of a module leads, a module of the bundle stands. -/
theorem mem_locations (rooted : space.cwd.isAbsolute = true) (hx : isExtension extension = true)
    (h : space.bundle extension entry = .ok bundle) (hp : path ∈ bundle.modules)
    {content : String} (hcontent : space.readText path = .ok content)
    {declaration : Source.Import} (hd : declaration ∈ Source.imports content) :
    .ok (importedLocation path.parent extension declaration.specifier) ∈
      bundle.modules.map space.locate := by
  have hc := canonical_of_mem_modules rooted h hp
  have himport : space.Imports extension path _ := imports_iff.2 ⟨content, hcontent, _, hd, rfl⟩
  have htarget := (mem_modules_iff h).2 (((mem_modules_iff h).1 hp).tail himport)
  refine List.mem_map.2 ⟨_, htarget, ?_⟩
  rw [locate_of_mem_modules rooted h htarget, walk_resolveSpecifier hc.parent.1.isAbsolute hx]

end Workspace

/-- An import from an absolute directory is resolved to the identity of the location where the walk
along its components ends, so two imports are resolved to the same path exactly if they lead to the
same location, and an extension may be written out behind any name that is more than dots. Hence a
bundle, whose modules are paths of this kind, has one module for all the imports that lead to a
location. -/
theorem resolveSpecifier_identity {extension : String} (hx : isExtension extension = true)
    (hslash : '/' ∉ extension.toList) :
    (∀ cwd base specifier : Path, base.isAbsolute = true → base.root ≠ "//" →
      specifier.root ≠ "//" →
      (resolveSpecifier cwd base extension specifier).Identifies
        (importedLocation base extension specifier) ∧
      (∀ cwd' base' specifier' : Path, base'.isAbsolute = true → base'.root ≠ "//" →
        specifier'.root ≠ "//" →
        (resolveSpecifier cwd base extension specifier =
            resolveSpecifier cwd' base' extension specifier' ↔
          importedLocation base extension specifier =
            importedLocation base' extension specifier')) ∧
      (specifier.extension = "" → (∃ c ∈ specifier.name.toList, c ≠ '.') →
        resolveSpecifier cwd base extension (specifier ++ extension) =
          resolveSpecifier cwd base extension specifier)) ∧
    ∀ (space : Workspace) (entry : Path) (bundle : Bundle), space.cwd.isAbsolute = true →
      space.bundle extension entry = .ok bundle →
      (∀ path ∈ bundle.modules, ∀ directory : Path, directory.absolute path = path) ∧
      ((space.absolute entry).root ≠ "//" → (∀ path ∈ bundle.modules, space.NamesPlainly path) →
        (bundle.modules.map space.locate).Nodup ∧
        ∀ path ∈ bundle.modules, ∀ content, space.readText path = .ok content →
          ∀ declaration ∈ Source.imports content,
            .ok (importedLocation path.parent extension declaration.specifier) ∈
              bundle.modules.map space.locate) := by
  refine ⟨fun cwd base specifier rooted single plain => ⟨?_, ?_, fun hnone hname => ?_⟩,
    fun space entry bundle rooted h => ⟨fun path hp _ => ?_, fun single plain => ⟨?_, ?_⟩⟩⟩
  · exact identifies_resolveSpecifier rooted hx single plain
  · intro cwd' base' specifier' rooted' single' plain'
    exact (identifies_resolveSpecifier rooted hx single plain).eq_iff
      (identifies_resolveSpecifier rooted' hx single' plain')
  · rw [resolveSpecifier_eq rooted, resolveSpecifier_eq rooted,
      Path.completed_append hx hslash hname hnone]
  · exact (Workspace.canonical_of_mem_modules rooted h hp).absolute_eq
  · exact Workspace.nodup_locations rooted h fun path hp =>
      Workspace.root_of_mem_modules rooted hx h single plain hp
  · exact fun path hp content hcontent declaration hd =>
      Workspace.mem_locations rooted hx h hp hcontent hd

/-- From a directory that is written with a detour, an import with a detour is resolved to the same
path as an absolute one, and as itself with its extension. The diamond names its first module in two
ways, and has it once. -/
theorem resolveSpecifier_identity_diamond :
    (isExtension ".js" = true ∧ '/' ∉ ".js".toList) ∧
    (resolveSpecifier "/w" "/w/lib/.." ".js" "./x/../d").Identifies ["w", "d.js"] ∧
    resolveSpecifier "/w" "/w/lib/.." ".js" "./x/../d" =
      resolveSpecifier "/v" "/v" ".js" "/w//d.js" ∧
    resolveSpecifier "/w" "/w/lib/.." ".js" ("./x/../d" ++ ".js") =
      resolveSpecifier "/w" "/w/lib/.." ".js" "./x/../d" ∧
    (["/w/d.js", "/w/b.js", "/w/c.js", "/w/a.js"].map Workspace.diamond.locate).Nodup := by
  have hx : isExtension ".js" = true := by decide
  have hslash : '/' ∉ ".js".toList := by decide
  have hplace : importedLocation "/w/lib/.." ".js" "./x/../d" = ["w", "d.js"] := by decide +kernel
  have hother : importedLocation "/v" ".js" "/w//d.js" = ["w", "d.js"] := by decide +kernel
  obtain ⟨himport, hbundle⟩ := resolveSpecifier_identity hx hslash
  obtain ⟨hidentity, hsame, hwritten⟩ :=
    himport "/w" "/w/lib/.." "./x/../d" (by decide) (by decide) (by decide)
  obtain ⟨-, hplaces⟩ := hbundle Workspace.diamond "a.js" _ rfl Workspace.bundle_diamond
  refine ⟨⟨hx, hslash⟩, hplace ▸ hidentity, ?_, ?_, ?_⟩
  · exact (hsame "/v" "/v" "/w//d.js" (by decide) (by decide) (by decide)).2
      (hplace.trans hother.symm)
  · exact hwritten (by decide) ⟨'d', by decide, by decide⟩
  · exact (hplaces (by decide) (by decide +kernel)).1

end Bundler
