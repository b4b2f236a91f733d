import Bundler.Proofs.Contents

/-!
# File systems as trees

A file system is a tree if each of its entries stands in a directory (`FileSystem.IsTree`), so that
nothing stands below a file. The empty file system is one, and every change to the files leaves one
(`Workspace.isTree_edit`). In a tree a canonical path leads to what stands at the location that it
names (`Workspace.get?_of_canonical`), and its last name belongs there if there is a directory above
it (`Workspace.destination_eq_ok_iff`), provided that operations take the path at all. A write
brings no file but the one that is written (`Workspace.content?_of_writeThrough`).
-/

namespace Bundler

namespace FileSystem

variable {files : FileSystem} {location outer : Location} {name : String} {entry : Entry}

/-- Each entry below the root stands in a directory. -/
def IsTree (files : FileSystem) : Prop :=
  ∀ location name entry, files.get? (location ++ [name]) = some entry →
    files.get? location = some .directory

/-- A table makes a tree exactly if the directory of each of its slots is there. -/
theorem isTree_iff :
    files.IsTree ↔ ∀ slot ∈ files.entries, files.get? slot.1.dropLast = some .directory := by
  constructor
  · intro h slot hs
    rcases List.eq_nil_or_concat slot.1 with hroot | ⟨init, last, hsplit⟩
    · rw [hroot]
      rfl
    · rw [List.concat_eq_append] at hsplit
      have hsome : (files.get? (init ++ [last])).isSome = true := by
        rw [get?, if_neg (by simp), List.lookup_isSome_iff]
        exact ⟨slot, hs, beq_iff_eq.2 hsplit.symm⟩
      obtain ⟨entry, he⟩ := Option.isSome_iff_exists.1 hsome
      rw [hsplit, List.dropLast_concat]
      exact h init last entry he
  · intro h location name entry hf
    rw [get?, if_neg (by simp)] at hf
    obtain ⟨before, after, hsplit, -⟩ := List.lookup_eq_some_iff.1 hf
    have hs := h (location ++ [name], entry) (by simp [hsplit])
    rwa [List.dropLast_concat] at hs

instance (files : FileSystem) : Decidable files.IsTree :=
  decidable_of_iff _ isTree_iff.symm

theorem isTree_empty : empty.IsTree :=
  isTree_iff.2 nofun

/-- All that an entry of a tree lies in are directories. -/
theorem IsTree.above (h : files.IsTree) (hf : files.get? location = some entry)
    (ho : outer <+: location) (hne : outer ≠ location) : files.get? outer = some .directory := by
  obtain ⟨names, rfl⟩ := ho
  induction names generalizing outer with
  | nil => exact absurd (List.append_nil outer).symm hne
  | cons name rest ih =>
    rw [List.append_cons] at hf
    by_cases hrest : rest = []
    · rw [hrest, List.append_nil] at hf
      exact h outer name entry hf
    · exact h outer name .directory (ih hf (by simpa using hrest))

/-- A directory of a tree lies in directories only. -/
theorem IsTree.directory_of_prefix (h : files.IsTree) (hd : files.get? location = some .directory)
    (ho : outer <+: location) : files.get? outer = some .directory := by
  by_cases he : outer = location
  · rw [he, hd]
  · exact h.above hd ho he

/-- Nothing stands below a place where nothing stands. -/
theorem IsTree.eq_none_of_prefix (h : files.IsTree) (hnone : files.get? outer = none)
    (ho : outer <+: location) : files.get? location = none := by
  by_cases he : outer = location
  · rwa [← he]
  cases hf : files.get? location with
  | none => rfl
  | some entry => cases hnone.symm.trans (h.above hf ho he)

/-- An insertion in a directory leaves a tree, unless it takes the place of a directory. -/
theorem IsTree.insert (h : files.IsTree) (hd : files.get? location = some .directory)
    (hfree : files.get? (location ++ [name]) ≠ some .directory) :
    (files.insert (location ++ [name]) entry).IsTree := by
  intro outer other found hf
  rw [get?_insert (by simp)] at hf ⊢
  have hother : files.get? outer = some .directory := by
    split at hf
    · next he => exact (List.append_inj' he rfl).1 ▸ hd
    · exact h outer other found hf
  rw [if_neg]
  · exact hother
  · rintro rfl
    exact hfree hother

/-- An erasure leaves a tree. -/
theorem IsTree.erase (h : files.IsTree) (location : Location) : (files.erase location).IsTree := by
  intro outer other found hf
  have hd := h outer other found (isPartOf_erase files location _ _ hf)
  by_cases hroot : location = []
  · subst hroot
    simp [get?, FileSystem.erase] at hf
  · rw [get?_erase hroot] at hf ⊢
    split at hf
    · cases hf
    · next hbelow =>
      rw [if_neg fun hp => hbelow (hp.trans (List.prefix_append outer [other]))]
      exact hd

end FileSystem

namespace Workspace

variable {space made after : Workspace} {path : Path} {location init : Location} {last : String}
  {content : ByteArray}

/-! ## Changes to the files -/

/-- The last name of a path belongs in a directory. -/
theorem exists_directory_of_destination (h : space.destination path = .ok location) :
    ∃ directory name, location = directory ++ [name] ∧
      space.files.get? directory = some .directory := by
  obtain ⟨-, name, -, directory, -, -, hd, -, rfl⟩ := destination_eq_ok h
  exact ⟨directory, name, rfl, hd⟩

/-- A directory that is made leaves a tree. -/
theorem isTree_makeDirectory (ht : space.files.IsTree) (h : space.makeDirectory path = .ok made) :
    made.files.IsTree := by
  obtain ⟨location, hd, hnone, -, rfl⟩ := makeDirectory_eq_ok h
  obtain ⟨directory, name, rfl, hdirectory⟩ := exists_directory_of_destination hd
  refine ht.insert hdirectory ?_
  rw [hnone]
  exact nofun

/-- A file that is put in place leaves a tree. -/
theorem isTree_writeFile (ht : space.files.IsTree)
    (h : space.writeFile path content = .ok after) : after.files.IsTree := by
  obtain ⟨location, hd, hfree, -, rfl⟩ := exists_destination_of_writeFile h
  obtain ⟨directory, name, rfl, hdirectory⟩ := exists_directory_of_destination hd
  exact ht.insert hdirectory hfree

/-- So do all directories on the way to a path. -/
theorem isTree_makeDirectories (ht : space.files.IsTree) (path : Path) :
    (space.makeDirectories path).1.files.IsTree :=
  makeDirectories_induction (fun _ hm ht => isTree_makeDirectory ht hm) ht

/-- Every change to the files leaves a tree, also one that is refused. -/
theorem isTree_edit (ht : space.files.IsTree) (edit : Edit) : (space.edit edit).1.files.IsTree := by
  cases edit <;> rw [Workspace.edit]
  case write path content =>
    exact writeThrough_induction (fun hm ht => isTree_makeDirectory ht hm)
      (fun hw ht => isTree_writeFile ht hw) ht
  case delete path =>
    unfold delete
    split
    · exact ht
    · exact ht.erase _
  case makeDirectories path => exact isTree_makeDirectories ht path

/-! ## Paths in a tree -/

/-- A canonical path that operations take leads to what stands at the location that it names. -/
theorem get?_of_canonical (ht : space.files.IsTree) (hc : path.Canonical)
    (hfault : path.fault? = none) : space.get? path = space.files.get? path.walk := by
  obtain ⟨hn, -⟩ := hc.mem_spellings
  unfold get?
  rw [locate_of_canonical hc hfault]
  cases hf : space.files.get? path.walk with
  | none =>
    split
    · next location hl =>
      cases FileSystem.resolve_names hn hl
      exact hf
    · rfl
  | some entry =>
    have hl : space.files.resolve [] path.walk = .ok path.walk :=
      FileSystem.resolve_names_of_directory hn (fun _ ho hne => ht.above hf ho hne)
        (Option.isSome_iff_exists.2 ⟨entry, hf⟩)
    rw [hl]
    exact hf

/-- What stands at the location that a canonical path names is found on the path. -/
theorem content?_of_file (ht : space.files.IsTree) (hc : path.Canonical)
    (hfault : path.fault? = none) (hf : space.files.get? path.walk = some (.file content)) :
    space.content? path = some content :=
  (content?_eq_some_iff hc hfault).2 ⟨hf, fun _ ho hne => ht.above hf ho hne⟩

/-- Making a directory brings no file. -/
theorem file_of_makeDirectory (h : space.makeDirectory path = .ok made)
    (hf : made.files.get? location = some (.file content)) :
    space.files.get? location = some (.file content) := by
  obtain ⟨new, hd, -, -, rfl⟩ := makeDirectory_eq_ok h
  obtain ⟨directory, name, rfl, -⟩ := exists_directory_of_destination hd
  rw [insert, FileSystem.get?_insert (by simp)] at hf
  split at hf
  · cases hf
  · exact hf

/-- A write brings no file but the one that is written. -/
theorem content?_of_writeThrough {target : Path} {text : ByteArray} (ht : space.files.IsTree)
    (rooted : space.cwd.isAbsolute = true) (hc : target.Canonical)
    (hne : target.walk ≠ (space.absolute path).walk)
    (h : (space.writeThrough path text).1.content? target = some content) :
    space.content? target = some content := by
  refine content?_of_file ht hc (fault?_of_content? h) ?_
  have hfound := (hasFile_of_content? hc h).found
  -- The directories on the way leave the working directory alone, so that the file is put where the
  -- path leads from the start.
  have hkept : (space.writeThrough path text).1.cwd = space.cwd ∧
      ((space.writeThrough path text).1.files.get? target.walk = some (.file content) →
        space.files.get? target.walk = some (.file content)) := by
    refine writeThrough_induction (motive := fun other => other.cwd = space.cwd ∧
      (other.files.get? target.walk = some (.file content) →
        space.files.get? target.walk = some (.file content))) ?_ ?_ ⟨rfl, id⟩
    · rintro before made _ hm ⟨hcwd, hback⟩
      exact ⟨(isPartOf_makeDirectory hm).cwd_eq.trans hcwd, fun hf =>
        hback (file_of_makeDirectory hm hf)⟩
    · rintro before after hw ⟨hcwd, hback⟩
      obtain ⟨rfl, hroot, -⟩ := writeFile_eq_ok (hcwd ▸ rooted) hw
      rw [absolute_congr hcwd] at hroot
      refine ⟨hcwd, fun hf => hback ?_⟩
      rwa [absolute_congr hcwd, insert, FileSystem.get?_insert hroot, if_neg hne] at hf
  exact hkept.2 hfound

/-- Where a file is removed, there is none any more. -/
theorem content?_delete_self (rooted : space.cwd.isAbsolute = true)
    (h : space.content? path = some content) :
    (space.delete path).content? (space.absolute path) = none := by
  obtain ⟨location, hl, hf⟩ := content?_eq_some.1 h
  have hwalk := walk_of_locate rooted hl
  have hc : (space.absolute path).Canonical := Path.canonical_absolute rooted
  have hroot : location ≠ [] := by
    rintro rfl
    cases hf
  cases hgone : (space.delete path).content? (space.absolute path) with
  | none => rfl
  | some left =>
    have hfound := (hasFile_of_content? hc hgone).found
    rw [hwalk, get?_delete hl hroot] at hfound
    cases hfound

/-- The last name of a canonical path that operations take belongs where the path leads, if there is
a directory above it. -/
theorem destination_of_directory (ht : space.files.IsTree) (hc : path.Canonical)
    (hfault : path.fault? = none) (hwalk : path.walk = init ++ [last])
    (hd : space.files.get? init = some .directory) :
    space.destination path = .ok path.walk := by
  obtain ⟨hn, -⟩ := hc.mem_spellings
  have hinit : ∀ name ∈ init, Path.IsName name := fun name hm => hn name (by simp [hwalk, hm])
  obtain ⟨-, hdot, hup, -⟩ := hn last (by simp [hwalk])
  obtain ⟨above, hdrop, hresolve⟩ := exists_above_of_canonical hc hwalk
  have hl : space.files.resolve [] above.reverse = .ok init := by
    rw [hresolve]
    exact FileSystem.resolve_names_of_directory hinit (fun _ ho hne => ht.above hd ho hne)
      (Option.isSome_iff_exists.2 ⟨_, hd⟩)
  unfold destination
  rw [hfault, hdrop, start, if_pos hc.isAbsolute]
  simp only [hl, hd, hdot, hup, decide_false, Bool.or_self, Bool.false_eq_true, if_false]
  rw [hwalk]

/-- The root has no last name. -/
theorem walk_ne_nil_of_destination (hc : path.Canonical)
    (h : space.destination path = .ok location) : path.walk ≠ [] := by
  intro hroot
  obtain ⟨hn, hp⟩ := hc.mem_spellings
  obtain ⟨-, name, above, -, hsplit, -⟩ := destination_eq_ok h
  obtain ⟨blanks, -, hname, hcomponents⟩ := components_of_dropWhile hsplit
  have hmem : name ∈ path.components := by simp [hcomponents]
  have hempty : ∀ component ∈ path.components, component = "" := by
    rw [hroot] at hn hp
    simp only [Location.spellings, List.mem_cons, List.not_mem_nil, or_false] at hp
    rcases hp with rfl | rfl
    · simp [Path.components_path hn]
    · simp [Path.components_slash, Path.components_path hn]
  exact hname (hempty name hmem)

/-- The last name of a canonical path belongs where the path leads, exactly if operations take the
path and there is a directory above. -/
theorem destination_eq_ok_iff (ht : space.files.IsTree) (hc : path.Canonical) :
    space.destination path = .ok location ↔
      path.fault? = none ∧ path.walk ≠ [] ∧
        space.files.get? path.walk.dropLast = some .directory ∧ location = path.walk := by
  have hconcat : path.walk ≠ [] → ∃ init last, path.walk = init ++ [last] := fun hne =>
    ⟨_, _, (List.dropLast_append_getLast hne).symm⟩
  constructor
  · intro h
    have hne := walk_ne_nil_of_destination hc h
    have hfault := (destination_eq_ok h).1
    obtain ⟨init, last, hwalk⟩ := hconcat hne
    have hd : space.files.get? init = some .directory :=
      directory_of_destination hc h (by simp [hwalk]) (by simp [hwalk])
    refine ⟨hfault, hne, by rwa [hwalk, List.dropLast_concat], ?_⟩
    exact Except.ok.inj (h.symm.trans (destination_of_directory ht hc hfault hwalk hd))
  · rintro ⟨hfault, hne, hd, rfl⟩
    obtain ⟨init, last, hwalk⟩ := hconcat hne
    rw [hwalk, List.dropLast_concat] at hd
    exact destination_of_directory ht hc hfault hwalk hd

end Workspace

end Bundler
