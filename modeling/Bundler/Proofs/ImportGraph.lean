import Bundler.Module
import Mathlib.Data.List.Chain
import Mathlib.Logic.Relation

/-!
# The import graph

The modules of a workspace are the nodes of a graph, and their imports are its edges
(`Workspace.Imports`). A path is a node with edges only if it leads to a file that can be read as
text (`Workspace.IsSource`), and this is exactly when a module can be loaded from it
(`isSource_iff_load`); who asks for the module makes no difference to the result
(`load_eq_ok_iff_none`), only to the error. `Workspace.Reaches` follows any number of edges, and
`Workspace.ImportCycle` is a simple cycle of them.
-/

namespace Bundler.Workspace

/-- The path leads to a regular file, and its bytes write a text. -/
def IsSource (space : Workspace) (path : Path) : Prop :=
  ∃ bytes, space.content? path = some bytes ∧ bytes.IsValidUTF8

/-- The module at `path` names the file `target` in one of its declarations. -/
def Imports (space : Workspace) (extension : String) (path target : Path) : Prop :=
  ∃ module, space.load extension none path = .ok module ∧ target ∈ module.dependencies

/-- Imports lead from `path` to `target`, in any number of steps. -/
def Reaches (space : Workspace) (extension : String) : Path → Path → Prop :=
  Relation.ReflTransGen (space.Imports extension)

/-- Some module that the start reaches reaches itself, in at least one step. -/
def Cyclic (space : Workspace) (extension : String) (start : Path) : Prop :=
  ∃ path, space.Reaches extension start path ∧
    Relation.TransGen (space.Imports extension) path path

/-- The paths import one another in a circle, written with the first path again at the end: it has
at least one step, and goes through each of its files once. -/
structure ImportCycle (space : Workspace) (extension : String) (cycle : List Path) : Prop where
  two_le_length : 2 ≤ cycle.length
  closed : cycle.head? = cycle.getLast?
  nodup : cycle.dropLast.Nodup
  imports : cycle.IsChain (space.Imports extension)
  source : ∀ path ∈ cycle, space.IsSource path

section
variable {space : Workspace} {extension : String} {importer : Option Path} {path : Path}

/-- The bytes of a file can be decoded exactly if they write a text. -/
theorem exists_decode_iff {bytes : ByteArray} :
    (∃ text, Text.Utf8.decode bytes = .ok text) ↔ bytes.IsValidUTF8 := by
  constructor
  · rintro ⟨text, h⟩
    rw [Text.Utf8.decode_eq_ok_iff.1 h]
    exact text.isValidUTF8
  · intro hv
    unfold Text.Utf8.decode
    exact ⟨_, dif_pos hv⟩

/-- A file is read as text exactly if its bytes write one. -/
theorem isSource_iff_readText : space.IsSource path ↔ ∃ text, space.readText path = .ok text := by
  unfold IsSource content? readText
  simp only [← exists_decode_iff]
  cases space.get? path with
  | none => simp
  | some entry =>
    cases entry with
    | directory => simp
    | file content => cases hd : Text.Utf8.decode content <;> simp [hd]

/-- The empty path leads to no file. -/
theorem IsSource.ne_empty (h : space.IsSource path) : path ≠ "" := by
  rintro rfl
  obtain ⟨bytes, hb, -⟩ := h
  cases hb

/-- A path that leads nowhere cannot be read. -/
theorem exists?_of_readText {text : String} (h : space.readText path = .ok text) :
    space.exists? path = true := by
  unfold readText at h
  unfold exists?
  split at h
  · cases h
  · next hd => rw [hd]; rfl
  · next hf => rw [hf]; rfl

/-- A loaded module is the module of the text at its path. -/
theorem load_eq_ok_iff {module : Module} : space.load extension importer path = .ok module ↔
    ∃ text, space.readText path = .ok text ∧ module = .ofText space.cwd extension path text := by
  unfold load
  constructor
  · intro h
    split at h
    · split at h
      · cases h
      · next text ht => cases h; exact ⟨text, ht, rfl⟩
    · cases h
  · rintro ⟨text, ht, rfl⟩
    rw [if_pos (exists?_of_readText ht), ht]

/-- A module is the same whoever imports it. -/
theorem load_eq_ok_iff_none {module : Module} :
    space.load extension importer path = .ok module ↔
      space.load extension none path = .ok module := by
  rw [load_eq_ok_iff, load_eq_ok_iff]

/-- A module is loaded exactly from a file that can be read as text. -/
theorem isSource_iff_load :
    space.IsSource path ↔ ∃ module, space.load extension importer path = .ok module := by
  rw [isSource_iff_readText]
  constructor
  · rintro ⟨text, ht⟩
    exact ⟨_, load_eq_ok_iff.2 ⟨text, ht, rfl⟩⟩
  · rintro ⟨module, h⟩
    obtain ⟨text, ht, -⟩ := load_eq_ok_iff.1 h
    exact ⟨text, ht⟩

/-- A loaded module keeps the path that it was loaded from. -/
theorem path_of_load {module : Module} (h : space.load extension importer path = .ok module) :
    module.path = path := by
  obtain ⟨text, -, rfl⟩ := load_eq_ok_iff.1 h
  rfl

/-- Only a module that can be loaded imports anything. -/
theorem Imports.isSource {target : Path} (h : space.Imports extension path target) :
    space.IsSource path := by
  obtain ⟨module, hm, -⟩ := h
  exact isSource_iff_load.2 ⟨module, hm⟩

/-- The imports of a loaded module are its dependencies. -/
theorem imports_iff_of_load {module : Module} {target : Path}
    (h : space.load extension none path = .ok module) :
    space.Imports extension path target ↔ target ∈ module.dependencies := by
  constructor
  · rintro ⟨other, ho, ht⟩
    rw [h] at ho
    cases ho
    exact ht
  · exact fun ht => ⟨module, h, ht⟩

/-- A module imports what its declarations are resolved to. -/
theorem imports_iff {target : Path} : space.Imports extension path target ↔
    ∃ content, space.readText path = .ok content ∧ ∃ declaration ∈ Source.imports content,
      resolveSpecifier space.cwd path.parent extension declaration.specifier = target := by
  constructor
  · rintro ⟨module, hl, ht⟩
    obtain ⟨content, hcontent, rfl⟩ := load_eq_ok_iff.1 hl
    exact ⟨content, hcontent, List.mem_map.1 ht⟩
  · rintro ⟨content, hcontent, hdeclaration⟩
    exact ⟨_, load_eq_ok_iff.2 ⟨content, hcontent, rfl⟩, List.mem_map.2 hdeclaration⟩

/-- A file that is there is refused because it is no regular file or its bytes write no text. -/
theorem readText_eq_error {error : Error} (h : space.readText path = .error error) :
    (∃ fault, error = .file fault path) ∨ ∃ fault, error = .malformed fault := by
  unfold readText at h
  split at h
  · cases h; exact .inl ⟨_, rfl⟩
  · cases h; exact .inl ⟨_, rfl⟩
  · split at h
    · cases h; exact .inr ⟨_, rfl⟩
    · cases h

/-- A module cannot be loaded if nothing stands at its path, or if what stands there cannot be read.
-/
theorem load_eq_error {error : Error} (h : space.load extension importer path = .error error) :
    (error = .moduleNotFound path importer ∧ space.exists? path = false) ∨
      (∃ fault, error = .file fault path) ∨ ∃ fault, error = .malformed fault := by
  unfold load at h
  split at h
  · split at h
    · next error' he => cases h; exact .inr (readText_eq_error he)
    · cases h
  · next hx => cases h; exact .inl ⟨rfl, by simpa using hx⟩

/-- A module that is missing is asked for by its path, and nothing stands there. -/
theorem load_eq_moduleNotFound {missing : Path} {asker : Option Path}
    (h : space.load extension importer path = .error (.moduleNotFound missing asker)) :
    missing = path ∧ asker = importer ∧ space.exists? path = false := by
  rcases load_eq_error h with ⟨he, hx⟩ | ⟨_, he⟩ | ⟨_, he⟩
  · cases he; exact ⟨rfl, rfl, hx⟩
  · cases he
  · cases he

/-- Loading one module never reports a cycle. -/
theorem load_ne_circularImport {cycle : List Path} :
    space.load extension importer path ≠ .error (.circularImport cycle) := by
  intro h
  rcases load_eq_error h with ⟨he, -⟩ | ⟨_, he⟩ | ⟨_, he⟩ <;> cases he

/-- The first path of a cycle leads back to itself. -/
theorem ImportCycle.transGen {cycle : List Path}
    (h : space.ImportCycle extension cycle) (hhead : cycle.head? = some path) :
    Relation.TransGen (space.Imports extension) path path := by
  obtain ⟨hlen, hclosed, -, hchain, -⟩ := h
  match cycle with
  | [] | [_] => simp at hlen
  | first :: second :: more =>
    cases hhead
    obtain ⟨hstep, hmore⟩ := List.isChain_cons_cons.1 hchain
    refine .head' hstep (List.relationReflTransGen_of_exists_isChain_cons more hmore ?_)
    rw [List.getLast?_cons_cons, List.getLast?_eq_getLast_of_ne_nil (by simp)] at hclosed
    exact (Option.some.inj hclosed).symm

end

end Bundler.Workspace
