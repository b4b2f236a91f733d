import Bundler.Proofs.Canonical
import Bundler.Proofs.Resolution
import Mathlib.Data.List.Perm.Subperm

/-!
# The names for files

In a workspace whose working directory is absolute every import is a canonical path
(`Workspace.Imports.canonical`), and a canonical path that leads to a file is one of the two paths
of an entry (`Workspace.mem_entries_of_canonical`). So there are at most twice as many of them as
there are entries (`Workspace.length_le_fileNames`), and a walk never needs more depth than it has
(`Descent.length_le`).
-/

namespace Bundler

namespace FileSystem

/-- An empty component does not move. -/
theorem resolve_empty {files : FileSystem} {components : List String} :
    files.resolve [] ("" :: components) = files.resolve [] components := by
  rw [resolve]; simp

/-- A walk along names goes down by all of them. -/
theorem resolve_names {files : FileSystem} {start location : Location} {names : List String}
    (hn : ∀ name ∈ names, Path.IsName name) (h : files.resolve start names = .ok location) :
    location = start ++ names := by
  induction names generalizing start with
  | nil =>
    unfold resolve at h
    split at h
    · cases h; simp
    · cases h
  | cons name rest ih =>
    obtain ⟨hempty, hdot, hup, -⟩ := hn name List.mem_cons_self
    unfold resolve at h
    split at h
    · cases h
    · cases h
    · simp only [hempty, hdot, hup, decide_false, Bool.or_self, Bool.false_eq_true, if_false] at h
      rw [ih (fun other ho => hn other (List.mem_cons_of_mem _ ho)) h, List.append_assoc,
        List.singleton_append]

/-- A walk along the path of a location ends at this location. -/
theorem resolve_components_path {files : FileSystem} {location : Location} {names : Location}
    (hn : ∀ name ∈ names, Path.IsName name)
    (h : files.resolve [] names.path.components = .ok location) : location = names := by
  -- The slash in front makes the first component empty, and the walk stays at the root.
  rw [Location.path, Path.components_slash, resolve_empty] at h
  by_cases hne : names = []
  · subst hne
    rw [show Path.components ("/".intercalate []) = [""] from rfl, resolve_empty] at h
    exact resolve_names hn h
  · rw [Path.components_intercalate hn hne] at h
    simpa using resolve_names hn h

/-- What is found below the root has its entry in the table. -/
theorem mem_entries_of_get? {files : FileSystem} {location : Location} {content : ByteArray}
    (h : files.get? location = some (.file content)) :
    (location, .file content) ∈ files.entries := by
  unfold get? at h
  split at h
  · cases h
  · obtain ⟨before, after, hsplit, -⟩ := List.lookup_eq_some_iff.1 h
    rw [hsplit]
    exact List.mem_append_right _ List.mem_cons_self

end FileSystem

namespace Workspace

variable {space : Workspace} {extension : String} {path target : Path}

/-- A canonical path that leads to a file is one of the two that lead to an entry. -/
theorem mem_entries_of_canonical {bytes : ByteArray} (hc : path.Canonical)
    (hbytes : space.content? path = some bytes) :
    ∃ slot ∈ space.files.entries, path ∈ slot.1.spellings := by
  have hstart : space.start path = [] := by rw [start, if_pos hc.isAbsolute]
  obtain ⟨names, hn, hp⟩ := hc
  have hfound : space.get? path = some (.file bytes) := by
    unfold content? at hbytes
    split at hbytes
    · cases hbytes; assumption
    · cases hbytes
  unfold get? locate at hfound
  rw [hstart] at hfound
  split at hfound
  · next location hl =>
    split at hl
    · cases hl
    have hl : space.files.resolve [] names.path.components = .ok location := by
      simp only [Location.spellings, List.mem_cons, List.not_mem_nil, or_false] at hp
      rcases hp with rfl | rfl
      · exact hl
      · rwa [Path.components_slash, FileSystem.resolve_empty] at hl
    cases FileSystem.resolve_components_path hn hl
    exact ⟨_, FileSystem.mem_entries_of_get? hfound, hp⟩
  · cases hfound

/-- There are not more canonical paths that lead to files than names for them. -/
theorem length_le_fileNames {paths : List Path} (hnd : paths.Nodup)
    (h : ∀ path ∈ paths, path.Canonical ∧ space.IsSource path) :
    paths.length ≤ space.fileNames := by
  have hsub : paths ⊆ space.files.entries.flatMap (·.1.spellings) := by
    intro path hp
    obtain ⟨hc, _, hbytes, -⟩ := h path hp
    exact List.mem_flatMap.2 (mem_entries_of_canonical hc hbytes)
  have hlen := (List.subperm_of_subset hnd hsub).length_le
  simp only [List.length_flatMap, Location.spellings, List.length_cons, List.length_nil,
    List.map_const', List.sum_replicate_nat] at hlen
  unfold fileNames
  omega

/-- An import is a canonical path. -/
theorem Imports.canonical (rooted : space.cwd.isAbsolute = true)
    (h : space.Imports extension path target) : target.Canonical := by
  obtain ⟨_, -, _, -, rfl⟩ := imports_iff.1 h
  exact Path.canonical_absolute rooted

end Workspace

/-- A walk enters at most one file more than there are names for files: the first of them need not
be canonical. -/
theorem Descent.length_le {space : Workspace} {extension : String}
    {inProgress paths entered : List Path} (rooted : space.cwd.isAbsolute = true)
    (h : Descent space extension inProgress paths entered) :
    entered.length ≤ space.fileNames + 1 := by
  have hdeeper : entered.tail.length ≤ space.fileNames := by
    refine Workspace.length_le_fileNames (h.nodup.sublist (List.tail_sublist _)) fun path hp => ?_
    obtain ⟨parent, hi⟩ := h.imported path hp
    exact ⟨hi.canonical rooted, h.source path (List.mem_of_mem_tail hp)⟩
  rw [List.length_tail] at hdeeper
  omega

end Bundler
