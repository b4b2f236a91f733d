import Bundler.Proofs.Ancestors
import Bundler.Proofs.Building
import Bundler.Proofs.Tree

/-!
# What a write leaves behind

A write to a canonical path makes the directories on the way that are missing, one by one, and then
puts the file in place. In a tree of files it succeeds if no file is in the way and every name that
is missing on the way fits (`Path.Fits`, `Workspace.writeThrough_of_free`). One that succeeds has
added the file and what was missing above it, and nothing else (`Workspace.gained_of_writeThrough`).
One that is refused has made directories at most (`Workspace.exists_hasMade_of_writeThrough`): none
if a file is in the way or a directory stands where the file belongs, but some if the first missing
one fits and a later step does not. This is the only way for it to change anything
(`Workspace.writeThrough_strands_iff`). The same holds of a build (`Host.build_strands_iff`).
-/

namespace Bundler

/-- Operations take the path, and an entry may have its last name. -/
structure Path.Fits (path : Path) : Prop where
  fault?_eq : path.fault? = none
  name : Location.fits path.walk = true

instance (path : Path) : Decidable path.Fits :=
  decidable_of_iff (path.fault? = none ∧ Location.fits path.walk = true)
    ⟨fun h => ⟨h.1, h.2⟩, fun h => ⟨h.fault?_eq, h.name⟩⟩

namespace FileSystem

variable {files : FileSystem} {location outer step : Location}

/-- No file stands at the location or above it. -/
def Free (files : FileSystem) (location : Location) : Prop :=
  ∀ outer, outer <+: location →
    files.get? outer = none ∨ files.get? outer = some .directory

theorem free_root (files : FileSystem) : files.Free [] := by
  intro outer ho
  rw [List.prefix_nil.1 ho]
  exact .inr rfl

/-- A directory is in nobody's way. -/
theorem Free.insert (h : files.Free location) (hroot : step ≠ []) :
    (files.insert step .directory).Free location := by
  intro outer ho
  rw [get?_insert hroot]
  split
  · exact .inr rfl
  · exact h outer ho

/-- Where no directory stands, the root is not. -/
theorem ne_nil_of_get?_ne (h : files.get? location ≠ some .directory) : location ≠ [] := by
  rintro rfl
  exact h rfl

/-- Nothing stands at the location, and a directory above it. -/
structure Vacant (files : FileSystem) (location : Location) : Prop where
  above : files.get? location.dropLast = some .directory
  nothing : files.get? location = none

instance (files : FileSystem) (location : Location) : Decidable (files.Vacant location) :=
  decidable_of_iff
    (files.get? location.dropLast = some .directory ∧ files.get? location = none)
    ⟨fun h => ⟨h.1, h.2⟩, fun h => ⟨h.above, h.nothing⟩⟩

/-- The root is not vacant, and does not lie below a vacant place. -/
theorem Vacant.ne_nil (h : files.Vacant location) (hon : location <+: outer) : outer ≠ [] := by
  rintro rfl
  rw [List.prefix_nil] at hon
  cases hon ▸ h.nothing

/-- All that a vacant place lies in are directories. -/
theorem Vacant.directory (h : files.Vacant location) (ht : files.IsTree) (ho : outer <+: location)
    (hne : outer ≠ location) : files.get? outer = some .directory :=
  ht.directory_of_prefix h.above (Location.prefix_dropLast ho hne)

/-- No file is in the way through a vacant place. -/
theorem Vacant.free (h : files.Vacant location) (ht : files.IsTree) (hon : location <+: outer) :
    files.Free outer := by
  intro place hp
  rcases List.prefix_or_prefix_of_prefix hp hon with hle | hge
  · by_cases he : place = location
    · exact .inl (he ▸ h.nothing)
    · exact .inr (h.directory ht hle he)
  · left
    exact ht.eq_none_of_prefix h.nothing hge

/-- What is different after a file with the content was put at the location: the file is there, the
directories above it are there where they were missing, and nothing else has changed. -/
structure Gained (before after : FileSystem) (location : Location) (content : ByteArray) : Prop
    extends after.HasFile location content where
  notDirectory : before.get? location ≠ some .directory
  free : ∀ outer, outer <+: location → outer ≠ location →
    before.get? outer = none ∨ before.get? outer = some .directory
  kept : ∀ other, ¬ other <+: location → after.get? other = before.get? other

end FileSystem

namespace Workspace

variable {space made after : Workspace} {path : Path} {location outer init : Location}
  {lead last : String} {content : ByteArray} {error : Error}

/-! ## Directories that were made -/

/-- The workspace with a directory at the location and above it, and otherwise as it was. -/
structure HasMade (space made : Workspace) (location : Location) : Prop where
  cwd_eq : made.cwd = space.cwd
  get?_eq : ∀ other, made.files.get? other =
    if other <+: location then some .directory else space.files.get? other

/-- The directories leave a tree. -/
theorem HasMade.isTree (h : space.HasMade made location) (ht : space.files.IsTree) :
    made.files.IsTree := by
  intro outer name entry hf
  rw [h.get?_eq] at hf ⊢
  split
  · rfl
  · next hout =>
    rw [if_neg fun hp => hout ((List.prefix_append _ _).trans hp)] at hf
    exact ht outer name entry hf

/-- In a tree nothing has to be made where a directory is. -/
theorem HasMade.refl (ht : space.files.IsTree)
    (hd : space.files.get? location = some .directory) : space.HasMade space location where
  cwd_eq := rfl
  get?_eq other := by
    split
    · next hp => exact ht.directory_of_prefix hd hp
    · rfl

/-- A directory on the way can be made first. -/
theorem HasMade.of_insert {step : Location}
    (h : (space.insert step .directory).HasMade made location) (hroot : step ≠ [])
    (hon : step <+: location) : space.HasMade made location where
  cwd_eq := h.cwd_eq
  get?_eq other := by
    rw [h.get?_eq]
    split
    · rfl
    · next hout =>
      refine (FileSystem.get?_insert hroot).trans (if_neg ?_)
      rintro rfl
      exact hout hon

/-- Where directories were made up to a place on the way, and one is at its end, all are there. -/
theorem HasMade.of_directory {reached : Location} (h : space.HasMade made reached)
    (ht : space.files.IsTree) (hon : reached <+: location)
    (hd : made.files.get? location = some .directory) : space.HasMade made location where
  cwd_eq := h.cwd_eq
  get?_eq other := by
    split
    · next hp =>
      have hmade := h.isTree ht
      exact hmade.directory_of_prefix hd hp
    · next hout => rw [h.get?_eq, if_neg fun hp => hout (hp.trans hon)]

/-- Directories are made further down by one more at a vacant place. -/
theorem HasMade.insert {reached : Location} (h : space.HasMade made reached)
    (ht : space.files.IsTree) (hvacant : made.files.Vacant location) (hon : reached <+: location) :
    space.HasMade (made.insert location .directory) location where
  cwd_eq := h.cwd_eq
  get?_eq other := by
    refine (FileSystem.get?_insert (hvacant.ne_nil (List.prefix_refl _))).trans ?_
    by_cases he : other = location
    · rw [if_pos he, if_pos (he ▸ List.prefix_refl _)]
    rw [if_neg he]
    split
    · next hp => exact hvacant.directory (h.isTree ht) hp he
    · next hout => rw [h.get?_eq, if_neg fun hp => hout (hp.trans hon)]

/-- No file was in the way where directories were made up to a place. -/
theorem HasMade.free {reached : Location} (h : space.HasMade made reached)
    (hfree : space.files.Free reached) (hmade : made.files.Free location) :
    space.files.Free location := by
  intro outer ho
  by_cases hp : outer <+: reached
  · exact hfree outer hp
  · have hget := h.get?_eq outer
    rw [if_neg hp] at hget
    exact hget ▸ hmade outer ho

/-- What has been gained when the file is put below the directories. -/
theorem HasMade.gained (h : space.HasMade made init) (hfree : space.files.Free init)
    (hd : space.files.get? (init ++ [last]) ≠ some .directory) :
    space.files.Gained (made.insert (init ++ [last]) (.file content)).files (init ++ [last])
      content := by
  have hget : ∀ other, (made.insert (init ++ [last]) (.file content)).files.get? other =
      if other = init ++ [last] then some (.file content)
      else if other <+: init then some .directory else space.files.get? other := by
    intro other
    rw [← h.get?_eq]
    exact FileSystem.get?_insert (by simp)
  have habove : ∀ {outer}, outer <+: init ++ [last] → outer ≠ init ++ [last] → outer <+: init :=
    fun ho hne => (List.prefix_concat_iff.1 ho).resolve_left hne
  refine ⟨⟨?_, fun outer ho hne => ?_⟩, hd, fun outer ho hne => ?_, fun other hother => ?_⟩
  · rw [hget, if_pos rfl]
  · rw [hget, if_neg hne, if_pos (habove ho hne)]
  · exact hfree outer (habove ho hne)
  · rw [hget, if_neg, if_neg]
    · exact fun hp => hother (hp.trans (List.prefix_append _ _))
    · rintro rfl
      exact hother (List.prefix_refl _)

/-! ## One directory, one file -/

/-- In a tree a canonical path that operations take exists if something stands at its location. -/
theorem exists?_of_canonical (ht : space.files.IsTree) (hc : path.Canonical)
    (hfault : path.fault? = none) :
    space.exists? path = (space.files.get? path.walk).isSome := by
  rw [exists?, get?_of_canonical ht hc hfault]

/-- A directory can be made at a canonical path exactly if the path fits and its place is vacant. -/
theorem makeDirectory_eq_ok_iff (ht : space.files.IsTree) (hc : path.Canonical) :
    space.makeDirectory path = .ok made ↔
      path.Fits ∧ space.files.Vacant path.walk ∧ made = space.insert path.walk .directory := by
  constructor
  · intro h
    obtain ⟨location, hd, hnone, hfits, hmade⟩ := makeDirectory_eq_ok h
    obtain ⟨hfault, -, habove, rfl⟩ := (destination_eq_ok_iff ht hc).1 hd
    exact ⟨⟨hfault, hfits⟩, ⟨habove, hnone⟩, hmade⟩
  · rintro ⟨hfits, hvacant, rfl⟩
    have hd := (destination_eq_ok_iff ht hc).2
      ⟨hfits.fault?_eq, hvacant.ne_nil (List.prefix_refl _), hvacant.above, rfl⟩
    unfold makeDirectory
    rw [hd]
    dsimp only
    rw [hvacant.nothing, if_neg (by simp), if_pos hfits.name]

/-- A file can be put at a canonical path exactly if the path fits, a directory is above and none
stands in its place. -/
theorem writeFile_eq_ok_iff (ht : space.files.IsTree) (hc : path.Canonical) :
    space.writeFile path content = .ok after ↔
      path.Fits ∧ (space.files.get? path.walk.dropLast = some .directory ∧
        space.files.get? path.walk ≠ some .directory) ∧
      after = space.insert path.walk (.file content) := by
  constructor
  · intro h
    obtain ⟨location, hd, hfree, hfits, hafter⟩ := exists_destination_of_writeFile h
    obtain ⟨hfault, -, habove, rfl⟩ := (destination_eq_ok_iff ht hc).1 hd
    exact ⟨⟨hfault, hfits⟩, ⟨habove, hfree⟩, hafter⟩
  · rintro ⟨hfits, ⟨habove, hfree⟩, rfl⟩
    have hne := FileSystem.ne_nil_of_get?_ne hfree
    have hd := (destination_eq_ok_iff ht hc).2 ⟨hfits.fault?_eq, hne, habove, rfl⟩
    have hslash := hc.getLast?_ne_slash hne
    unfold writeFile
    rw [hd]
    dsimp only
    rw [if_neg (by simp [hslash, hfree]), if_pos hfits.name]

/-! ## The directories on the way -/

/-- Nothing is made if none of the paths can be made. -/
theorem workspace_makeMissing_of_refused {paths : List Path}
    (h : ∀ step ∈ paths, ∀ made, space.makeDirectory step ≠ .ok made) :
    (space.makeMissing paths).1 = space := by
  induction paths with
  | nil => rfl
  | cons step rest ih =>
    unfold makeMissing
    split
    · exact ih fun other ho => h other (List.mem_cons_of_mem _ ho)
    · split
      · rfl
      · next made hm => exact absurd hm (h step List.mem_cons_self made)

/-- What can be made of some paths is made before the others. -/
theorem makeMissing_append {paths others : List Path}
    (h : space.makeMissing paths = (made, .ok ())) :
    space.makeMissing (paths ++ others) = made.makeMissing others := by
  induction paths generalizing space with
  | nil =>
    cases h
    rfl
  | cons step rest ih =>
    rw [List.cons_append]
    rw [makeMissing] at h ⊢
    split at h
    · next hthere =>
      rw [if_pos hthere]
      exact ih h
    · next hmissing =>
      rw [if_neg hmissing]
      split at h
      · cases h
      · exact ih h

/-- The missing directories on the way down from a directory are made if no file is in the way and
they all fit. -/
theorem makeMissing_of_free (hl : Path.IsLead lead) {base : Location} {names : List String}
    (hn : ∀ name ∈ base ++ names, Path.IsName name) (ht : space.files.IsTree)
    (hd : space.files.get? base = some .directory) (hfree : space.files.Free (base ++ names))
    (hfault : ∀ step ∈ base.downFrom names, (step.spelled lead).fault? = none)
    (hfits : ∀ step ∈ base.downFrom names, space.files.get? step = none → step.fits = true) :
    ∃ made, space.makeMissing ((base.downFrom names).map (·.spelled lead)) = (made, .ok ()) ∧
      space.HasMade made (base ++ names) := by
  induction names generalizing space base with
  | nil => exact ⟨space, rfl, (List.append_nil base).symm ▸ .refl ht hd⟩
  | cons name rest ih =>
    rw [List.append_cons] at hn hfree ⊢
    obtain ⟨hc, hwalk⟩ := Path.canonical_spelled hl
      fun other ho => hn other (List.mem_append_left rest ho)
    have hon : base ++ [name] <+: base ++ [name] ++ rest := List.prefix_append _ _
    have hlater : ∀ step ∈ (base ++ [name]).downFrom rest, step ∈ base.downFrom (name :: rest) :=
      fun _ hs => List.mem_cons_of_mem _ hs
    have htaken : (Location.spelled (base ++ [name]) lead).fault? = none :=
      hfault _ List.mem_cons_self
    rw [Location.downFrom, List.map_cons]
    unfold makeMissing
    rw [exists?_of_canonical ht hc htaken, hwalk]
    rcases hfree _ hon with hnone | hthere
    · -- The first directory is made, and the others are missing as they were.
      have hroot : base ++ [name] ≠ [] := by simp
      have hvacant : space.files.Vacant (base ++ [name]) := ⟨by rwa [List.dropLast_concat], hnone⟩
      have hname : Location.fits (base ++ [name]) = true := hfits _ List.mem_cons_self hnone
      have hmade : space.makeDirectory (Location.spelled (base ++ [name]) lead) =
          .ok (space.insert (base ++ [name]) .directory) :=
        (makeDirectory_eq_ok_iff ht hc).2 ⟨⟨htaken, hwalk.symm ▸ hname⟩, hwalk.symm ▸ hvacant,
          by rw [hwalk]⟩
      have hget : ∀ other, (space.insert (base ++ [name]) .directory).files.get? other =
          if other = base ++ [name] then some .directory else space.files.get? other :=
        fun _ => FileSystem.get?_insert hroot
      have hstill : ∀ step ∈ (base ++ [name]).downFrom rest,
          (space.insert (base ++ [name]) .directory).files.get? step = none →
            step.fits = true := by
        intro step hs hmissing
        rw [hget] at hmissing
        split at hmissing
        · cases hmissing
        · exact hfits step (hlater _ hs) hmissing
      obtain ⟨made, hrest, hhas⟩ := ih hn (isTree_makeDirectory ht hmade)
        ((hget _).trans (if_pos rfl)) (hfree.insert hroot)
        (fun step hs => hfault step (hlater _ hs)) hstill
      rw [hnone, hmade]
      exact ⟨made, hrest, hhas.of_insert hroot hon⟩
    · rw [hthere]
      exact ih hn ht hthere hfree (fun step hs => hfault step (hlater _ hs))
        fun step hs => hfits step (hlater _ hs)

/-- So are those on the way to a canonical path, and at its end. -/
theorem makeMissing_trail_of_free (ht : space.files.IsTree) (hc : path.Canonical)
    (hfree : space.files.Free path.walk) (hfault : ∀ step ∈ path.trail, step.fault? = none)
    (hfits : ∀ step ∈ path.trail, space.files.get? step.walk = none →
      Location.fits step.walk = true) :
    ∃ made, space.makeMissing path.trail = (made, .ok ()) ∧ space.HasMade made path.walk := by
  obtain ⟨hn, -⟩ := hc.mem_spellings
  obtain ⟨lead, hl, hp⟩ := hc.exists_lead
  have htrail : path.trail = (Location.downFrom [] path.walk).map (·.spelled lead) := by
    conv => lhs; rw [hp]
    exact Path.trail_spelled hl hn
  rw [htrail] at hfault hfits ⊢
  refine makeMissing_of_free hl hn ht rfl hfree
    (fun step hs => hfault _ (List.mem_map_of_mem hs)) fun step hs hmissing => ?_
  have hwalk : (step.spelled lead).walk = step := (Path.canonical_spelled hl fun name hm =>
    hn name ((Location.prefix_of_mem_downFrom hs).subset hm)).2
  have hname := hfits _ (List.mem_map_of_mem hs) (hwalk.symm ▸ hmissing)
  rwa [hwalk] at hname

/-- The way to a vacant place is there, and so a directory is made at the place if its path fits. -/
theorem makeMissing_trail_of_vacant (ht : space.files.IsTree) (hc : path.Canonical)
    (hfits : path.Fits) (hvacant : space.files.Vacant path.walk) :
    ∃ made, space.makeMissing path.trail = (made, .ok ()) ∧ space.HasMade made path.walk := by
  refine makeMissing_trail_of_free ht hc (hvacant.free ht (List.prefix_refl _))
    (fun _ hs => Path.fault?_of_mem_trail hfits.fault?_eq hs) fun step hs hnone => ?_
  by_cases he : step.walk = path.walk
  · rw [he]
    exact hfits.name
  · cases hnone.symm.trans (hvacant.directory ht (hc.of_mem_trail hs).2 he)

/-- A canonical path has nothing redundant at its end. -/
theorem isRedundant_of_canonical (hc : path.Canonical) : space.isRedundant path = false := by
  unfold isRedundant
  rw [decide_eq_false hc.name_ne_dot, Bool.false_and, Bool.false_and]

/-- The directories on the way to a canonical path are made along its trail. -/
theorem makeDirectories_eq (hc : path.Canonical) :
    space.makeDirectories path =
      match space.makeMissing path.trail with
      | (made, .error error) => (made, .error error)
      | (made, .ok ()) =>
        if made.get? path = some .directory then (made, .ok ())
        else (made, .error (.file .fileExists path)) := by
  have hsteps : path.trail.filter (fun step => !space.isRedundant step) = path.trail := by
    refine List.filter_eq_self.2 fun step hs => ?_
    rw [isRedundant_of_canonical (hc.of_mem_trail hs).1]
    rfl
  unfold makeDirectories
  rw [hsteps]
  generalize space.makeMissing path.trail = outcome
  obtain ⟨made, _ | _⟩ := outcome
  · rfl
  · simp only [isRedundant_of_canonical hc, Bool.or_false, decide_eq_true_eq]

/-- What is left of it are the directories that could be made. -/
theorem workspace_makeDirectories (hc : path.Canonical) :
    (space.makeDirectories path).1 = (space.makeMissing path.trail).1 := by
  rw [makeDirectories_eq hc]
  split
  · next hm => rw [hm]
  · next hm =>
    rw [hm]
    split <;> rfl

/-- However far it gets, the directories up to some place on the way are there, and no file is in
the way to that place. -/
theorem exists_hasMade_of_makeDirectories (ht : space.files.IsTree) (hc : path.Canonical) :
    ∃ reached, reached <+: path.walk ∧ space.files.Free reached ∧
      space.HasMade (space.makeDirectories path).1 reached := by
  refine makeDirectories_induction (motive := fun made => ∃ reached, reached <+: path.walk ∧
    space.files.Free reached ∧ space.HasMade made reached) ?_
    ⟨[], List.nil_prefix, FileSystem.free_root _, .refl ht rfl⟩
  rintro before made step hs hm ⟨reached, hr, hfree, hhas⟩
  obtain ⟨hstep, hon⟩ := hc.of_mem_trail hs
  have htree := hhas.isTree ht
  obtain ⟨-, hvacant, rfl⟩ := (makeDirectory_eq_ok_iff htree hstep).1 hm
  -- The step lies below the place: up to the place all is there.
  have hbelow : reached <+: step.walk := by
    refine (List.prefix_or_prefix_of_prefix hr hon).resolve_right fun hp => ?_
    have hthere := (hhas.get?_eq step.walk).trans (if_pos hp)
    cases hvacant.nothing.symm.trans hthere
  exact ⟨step.walk, hon, hhas.free hfree (hvacant.free htree (List.prefix_refl _)),
    hhas.insert ht hvacant hbelow⟩

/-! ## The file with the directories above it -/

/-- A write to a canonical path makes the directory that stands before its last name first. -/
theorem writeThrough_eq (hc : path.Canonical) :
    space.writeThrough path content =
      match space.makeDirectories path.parent with
      | (made, .error error) => (made, .error error)
      | (made, .ok ()) =>
        match made.writeFile path content with
        | .error error => (made, .error error)
        | .ok after => (after, .ok ()) := by
  unfold writeThrough
  rw [if_neg hc.parent.1.ne_empty]
  generalize space.makeDirectories path.parent = outcome
  obtain ⟨made, _ | _⟩ := outcome <;> rfl

/-- A write that is refused leaves the directories that could be made. -/
theorem workspace_writeThrough_of_error (hc : path.Canonical)
    (h : (space.writeThrough path content).2 = .error error) :
    (space.writeThrough path content).1 = (space.makeDirectories path.parent).1 := by
  rw [writeThrough_eq hc] at h ⊢
  split at h
  · next hm => rw [hm]
  · next hm =>
    rw [hm]
    split at h
    · rfl
    · cases h

/-- A write that succeeds has made all directories above the path, and then put the file in place.
-/
theorem exists_made_of_writeThrough (hc : path.Canonical)
    (h : space.writeThrough path content = (after, .ok ())) :
    ∃ made, space.makeDirectories path.parent = (made, .ok ()) ∧
      made.writeFile path content = .ok after := by
  rw [writeThrough_eq hc] at h
  split at h
  · cases h
  · next made hm =>
    refine ⟨made, hm, ?_⟩
    split at h
    · cases h
    · next hw =>
      cases h
      exact hw

/-- A write that is refused has made directories on the way at most. -/
theorem exists_hasMade_of_writeThrough (ht : space.files.IsTree) (hc : path.Canonical)
    (h : (space.writeThrough path content).2 = .error error) :
    ∃ reached, reached <+: path.walk.dropLast ∧ space.files.Free reached ∧
      space.HasMade (space.writeThrough path content).1 reached := by
  obtain ⟨hparent, hwalk⟩ := hc.parent
  rw [workspace_writeThrough_of_error hc h, ← hwalk]
  exact exists_hasMade_of_makeDirectories ht hparent

/-- A write that succeeds adds the file with the missing directories above it. -/
theorem gained_of_writeThrough (ht : space.files.IsTree) (hc : path.Canonical)
    (h : space.writeThrough path content = (after, .ok ())) :
    path.Fits ∧ after.cwd = space.cwd ∧ space.files.Gained after.files path.walk content := by
  obtain ⟨made, hm, hw⟩ := exists_made_of_writeThrough hc h
  obtain ⟨hparent, hwalk⟩ := hc.parent
  obtain ⟨reached, hr, hfree, hhas⟩ := exists_hasMade_of_makeDirectories ht hparent
  rw [hwalk] at hr
  rw [hm] at hhas
  have htree := hhas.isTree ht
  obtain ⟨hfits, ⟨habove, hplace⟩, rfl⟩ := (writeFile_eq_ok_iff htree hc).1 hw
  refine ⟨hfits, hhas.cwd_eq, ?_⟩
  have hall := hhas.of_directory ht hr habove
  obtain ⟨init, last, hsplit⟩ : ∃ init last, path.walk = init ++ [last] :=
    ⟨_, _, (List.dropLast_append_getLast (FileSystem.ne_nil_of_get?_ne hplace)).symm⟩
  rw [hsplit, List.dropLast_concat] at hall habove
  rw [hsplit] at hplace ⊢
  refine hall.gained (hhas.free hfree fun outer ho => .inr ?_) ?_
  · exact htree.directory_of_prefix habove ho
  · rwa [hall.get?_eq, if_neg fun hp => absurd hp.length_le (by simp)] at hplace

/-- If all that has been added has a name that fits, so it is after an insertion of one. -/
theorem fits_of_insert {entry : Entry} (hroot : outer ≠ []) (hfits : outer.fits = true)
    (hback : space.files.get? location ≠ none → location.fits = true)
    (h : (space.insert outer entry).files.get? location ≠ none) : location.fits = true := by
  rw [insert, FileSystem.get?_insert hroot] at h
  split at h
  · next he => exact he ▸ hfits
  · exact hback h

/-- What a write adds has a name that fits. -/
theorem fits_of_writeThrough (hnone : space.files.get? location = none)
    (h : (space.writeThrough path content).1.files.get? location ≠ none) :
    location.fits = true := by
  refine writeThrough_induction (motive := fun other =>
    other.files.get? location ≠ none → location.fits = true) ?_ ?_ (absurd hnone) h
  · intro before made step hm hback
    obtain ⟨new, hd, -, hfits, rfl⟩ := makeDirectory_eq_ok hm
    obtain ⟨directory, name, rfl, -⟩ := exists_directory_of_destination hd
    exact fits_of_insert (by simp) hfits hback
  · intro before after hw hback
    obtain ⟨new, hd, -, hfits, rfl⟩ := exists_destination_of_writeFile hw
    obtain ⟨directory, name, rfl, -⟩ := exists_directory_of_destination hd
    exact fits_of_insert (by simp) hfits hback

/-- A write succeeds if no file is in the way, no directory stands in its place, and the path and
all that is missing on the way fit. -/
theorem writeThrough_of_free (ht : space.files.IsTree) (hc : path.Canonical) (hpath : path.Fits)
    (hfree : space.files.Free path.walk.dropLast)
    (hd : space.files.get? path.walk ≠ some .directory)
    (hfits : ∀ step ∈ path.trail, space.files.get? step.walk = none → step.Fits) :
    (space.writeThrough path content).2 = .ok () := by
  obtain ⟨hparent, hwalk⟩ := hc.parent
  have hne := FileSystem.ne_nil_of_get?_ne hd
  have hup : ∀ step ∈ path.parent.trail, step ∈ path.trail := fun step hs => by
    rw [hc.trail_eq hne]
    exact List.mem_append_left _ hs
  have hfault : ∀ step ∈ path.trail, step.fault? = none := fun _ hs =>
    Path.fault?_of_mem_trail hpath.fault?_eq hs
  obtain ⟨made, hm, hhas⟩ := makeMissing_trail_of_free ht hparent (hwalk ▸ hfree)
    (fun step hs => hfault step (hup step hs)) fun step hs hnone =>
      (hfits step (hup step hs) hnone).name
  rw [hwalk] at hhas
  have hdirectory : made.files.get? path.walk.dropLast = some .directory :=
    (hhas.get?_eq _).trans (if_pos (List.prefix_refl _))
  have hplace : made.files.get? path.walk ≠ some .directory := by
    rwa [hhas.get?_eq, if_neg (Location.not_prefix_dropLast hne)]
  have hw : made.writeFile path content = .ok (made.insert path.walk (.file content)) :=
    (writeFile_eq_ok_iff (hhas.isTree ht) hc).2 ⟨hpath, ⟨hdirectory, hplace⟩, rfl⟩
  have hthere : made.get? path.parent = some .directory := by
    rw [get?_of_canonical (hhas.isTree ht) hparent (hc.fault?_parent hpath.fault?_eq), hwalk,
      hdirectory]
  rw [writeThrough_eq hc, makeDirectories_eq hparent, hm]
  dsimp only
  rw [if_pos hthere]
  dsimp only
  rw [hw]

/-! ## Writes that strand -/

/-- The first directory that is missing on the way to the path can be made, and a later step is
refused. So a write makes the one and fails at the other. -/
def Strands (space : Workspace) (path : Path) : Prop :=
  ∃ first ∈ path.trail, (first.Fits ∧ space.files.Vacant first.walk) ∧
    ∃ refused ∈ path.trail, first.walk <+: refused.walk ∧ ¬ refused.Fits

instance (space : Workspace) (path : Path) : Decidable (space.Strands path) :=
  inferInstanceAs (Decidable (∃ first ∈ path.trail, (first.Fits ∧ space.files.Vacant first.walk) ∧
    ∃ refused ∈ path.trail, first.walk <+: refused.walk ∧ ¬ refused.Fits))

/-- A write strands if its name is too long for a directory that has to be made first. -/
theorem strands_of_fits_eq_false (hc : path.Canonical) (hparent : path.parent.Fits)
    (hvacant : space.files.Vacant path.walk.dropLast) (hlong : Location.fits path.walk = false) :
    space.Strands path := by
  obtain ⟨hup, hwalk⟩ := hc.parent
  have htrail := hc.trail_eq (hvacant.ne_nil (List.dropLast_prefix _))
  rw [← hwalk] at hvacant
  have hmem : path.parent ∈ path.parent.trail := by
    rw [hup.trail_eq (hvacant.ne_nil (List.prefix_refl _))]
    simp
  refine ⟨path.parent, ?_, ⟨hparent, hvacant⟩, path, ?_, ?_, fun hfits => ?_⟩
  · rw [htrail]
    exact List.mem_append_left _ hmem
  · rw [htrail]
    exact List.mem_append_right _ (List.mem_singleton_self _)
  · rw [hwalk]
    exact List.dropLast_prefix _
  · rw [hfits.name] at hlong
    cases hlong

/-- A write that would strand is refused. -/
theorem exists_error_of_strands (ht : space.files.IsTree) (hc : path.Canonical)
    (h : space.Strands path) : ∃ error, (space.writeThrough path content).2 = .error error := by
  obtain ⟨first, -, ⟨-, hvacant⟩, refused, hr, hbelow, hunfit⟩ := h
  rcases hw : space.writeThrough path content with ⟨after, error | _⟩
  · exact ⟨error, rfl⟩
  -- All that was missing above the file has been made, so it fits.
  obtain ⟨hfits, -, hgained⟩ := gained_of_writeThrough ht hc hw
  have hthere : after.files.get? refused.walk ≠ none := by
    by_cases he : refused.walk = path.walk
    · rw [he, hgained.found]
      exact nofun
    · rw [hgained.above _ (hc.of_mem_trail hr).2 he]
      exact nofun
  have hmissing := ht.eq_none_of_prefix hvacant.nothing hbelow
  refine absurd ⟨Path.fault?_of_mem_trail hfits.fault?_eq hr, ?_⟩ hunfit
  exact fits_of_writeThrough hmissing (by rwa [hw])

/-- A write that would strand leaves a directory that was not there. -/
theorem workspace_ne_of_strands (ht : space.files.IsTree) (hc : path.Canonical)
    (h : space.Strands path) (herror : (space.writeThrough path content).2 = .error error) :
    (space.writeThrough path content).1 ≠ space := by
  obtain ⟨first, hf, ⟨hfits, hvacant⟩, refused, hr, hbelow, hunfit⟩ := h
  obtain ⟨hfirst, hon⟩ := hc.of_mem_trail hf
  obtain ⟨hparent, -⟩ := hc.parent
  have hne := hvacant.ne_nil hon
  -- The step that is refused lies further down, so the first one is not the file itself.
  have hup : first ∈ path.parent.trail := by
    refine hc.mem_trail_parent hne hf hr hbelow ?_
    rintro rfl
    exact hunfit hfits
  obtain ⟨more, hmore⟩ := hparent.exists_trail_append hup
  obtain ⟨made, hm, hhas⟩ := makeMissing_trail_of_vacant ht hfirst hfits hvacant
  have hthere : made.files.get? first.walk = some .directory :=
    (hhas.get?_eq _).trans (if_pos (List.prefix_refl _))
  have hpart : made.IsPartOf (space.makeMissing path.parent.trail).1 := by
    rw [hmore, makeMissing_append hm]
    exact makeMissing_induction (fun _ hm hp => hp.trans (isPartOf_makeDirectory hm)) (.refl made)
  rw [workspace_writeThrough_of_error hc herror, workspace_makeDirectories hparent]
  intro hsame
  rw [hsame] at hpart
  cases hvacant.nothing.symm.trans (hpart.files _ _ hthere)

/-- A write that is refused strands if it leaves anything changed. -/
theorem strands_of_error (ht : space.files.IsTree) (hc : path.Canonical)
    (herror : (space.writeThrough path content).2 = .error error)
    (hchanged : (space.writeThrough path content).1 ≠ space) : space.Strands path := by
  obtain ⟨hparent, hwalk⟩ := hc.parent
  rw [workspace_writeThrough_of_error hc herror, workspace_makeDirectories hparent] at hchanged
  obtain ⟨first, hf, made, hm⟩ :
      ∃ first ∈ path.parent.trail, ∃ made, space.makeDirectory first = .ok made := by
    by_contra hnone
    simp only [not_exists, not_and] at hnone
    exact hchanged (workspace_makeMissing_of_refused hnone)
  obtain ⟨hfirst, hon⟩ := hparent.of_mem_trail hf
  obtain ⟨hfits, hvacant, -⟩ := (makeDirectory_eq_ok_iff ht hfirst).1 hm
  rw [hwalk] at hon
  have hbelow : first.walk <+: path.walk := hon.trans (List.dropLast_prefix _)
  have htrail := hc.trail_eq (hvacant.ne_nil hbelow)
  by_contra hnot
  -- Otherwise all from the first one on fits, and the write succeeds.
  have hall : ∀ step ∈ path.trail, first.walk <+: step.walk → step.Fits := by
    intro step hs hp
    by_contra hunfit
    exact hnot ⟨first, htrail ▸ List.mem_append_left _ hf, ⟨hfits, hvacant⟩, step, hs, hp, hunfit⟩
  have hpath : path.Fits := hall path (by simp [htrail]) hbelow
  have hnone : space.files.get? path.walk = none := ht.eq_none_of_prefix hvacant.nothing hbelow
  have hok : (space.writeThrough path content).2 = .ok () := by
    refine writeThrough_of_free ht hc hpath (hvacant.free ht hon) (by rw [hnone]; exact nofun) ?_
    intro step hs hmissing
    refine hall step hs ?_
    rcases List.prefix_or_prefix_of_prefix hbelow (hc.of_mem_trail hs).2 with hp | hp
    · exact hp
    · by_cases he : step.walk = first.walk
      · exact he ▸ List.prefix_refl _
      · cases hmissing.symm.trans (hvacant.directory ht hp he)
  cases herror.symm.trans hok

/-- A write is refused with something changed exactly if it strands. -/
theorem writeThrough_strands_iff (ht : space.files.IsTree) (hc : path.Canonical)
    (content : ByteArray) :
    ((∃ error, (space.writeThrough path content).2 = .error error) ∧
      (space.writeThrough path content).1 ≠ space) ↔ space.Strands path := by
  constructor
  · rintro ⟨⟨error, herror⟩, hchanged⟩
    exact strands_of_error ht hc herror hchanged
  · intro h
    obtain ⟨error, herror⟩ := exists_error_of_strands ht hc h
    exact ⟨⟨error, herror⟩, workspace_ne_of_strands ht hc h herror⟩

/-- Where nothing stands, there is no text from before. -/
theorem readPrevious_of_none (ht : space.files.IsTree) (hc : path.Canonical)
    (hnone : space.files.get? path.walk = none) : space.readPrevious path = .ok "" := by
  have hmissing : space.get? path = none := by
    cases hfault : path.fault? with
    | none => rw [get?_of_canonical ht hc hfault, hnone]
    | some fault =>
      unfold get? locate
      rw [hfault]
  unfold readPrevious exists?
  rw [hmissing]
  rfl

/-- What would strand is not there. -/
theorem Strands.get?_eq (h : space.Strands path) (ht : space.files.IsTree) (hc : path.Canonical) :
    space.files.get? path.walk = none := by
  obtain ⟨first, hf, ⟨-, hvacant⟩, -⟩ := h
  exact ht.eq_none_of_prefix hvacant.nothing (hc.of_mem_trail hf).2

end Workspace

namespace Host

variable {host : Host} {config : Config}

/-- A build leaves a tree, also one that is refused. -/
theorem isTree_build (ht : host.workspace.files.IsTree) (config : Config) :
    (host.build config).1.workspace.files.IsTree := by
  rcases build_cases host config with ⟨hspace, -⟩ | ⟨bundle, -, hspace, -⟩
  · rwa [hspace]
  · have htree := Workspace.isTree_edit ht
      (.write (host.workspace.absolute config.output) bundle.text.toUTF8)
    rw [Workspace.edit] at htree
    rwa [hspace, Workspace.writeText]

/-- A build that is refused leaves the files as they were, except if there is a bundle and its write
strands; then directories on the way to the output have been made, and nothing else. A build that
succeeds leaves the text of its bundle at the output, and changes nothing else but that the
directories above it are there. -/
theorem build_strands_iff (ht : host.workspace.files.IsTree)
    (rooted : host.workspace.cwd.isAbsolute = true) :
    (((∃ error, (host.build config).2 = .error error) ∧
        (host.build config).1.workspace ≠ host.workspace) ↔
      (∃ bundle, host.workspace.bundle config.extension config.entry = .ok bundle) ∧
        host.workspace.Strands (host.workspace.absolute config.output)) ∧
    (∀ error, (host.build config).2 = .error error →
      ∃ reached, reached <+: (host.workspace.absolute config.output).walk.dropLast ∧
        host.workspace.files.Free reached ∧
        host.workspace.HasMade (host.build config).1.workspace reached) ∧
    ∀ bundle, (host.build config).2 = .ok bundle →
      (host.build config).1.workspace.cwd = host.workspace.cwd ∧
      (host.build config).1.workspace.content? (host.workspace.absolute config.output) =
        some bundle.text.toUTF8 ∧
      host.workspace.files.Gained (host.build config).1.workspace.files
        (host.workspace.absolute config.output).walk bundle.text.toUTF8 := by
  have hc : (host.workspace.absolute config.output).Canonical := Path.canonical_absolute rooted
  refine ⟨⟨?_, ?_⟩, fun error herror => ?_, fun bundle hok => ?_⟩
  · rintro ⟨⟨error, herror⟩, hchanged⟩
    rcases build_eq_error herror with hspace | ⟨bundle, hb, hspace, hw⟩
    · exact absurd hspace hchanged
    · rw [hspace] at hchanged
      exact ⟨⟨bundle, hb⟩, (Workspace.writeThrough_strands_iff ht hc _).1 ⟨⟨error, hw⟩, hchanged⟩⟩
  · rintro ⟨⟨bundle, hb⟩, hstrands⟩
    have hp : (if config.diff then
        host.workspace.readPrevious (host.workspace.absolute config.output) else .ok "") =
        .ok "" := by
      split
      · exact Workspace.readPrevious_of_none ht hc (hstrands.get?_eq ht hc)
      · rfl
    obtain ⟨⟨error, hw⟩, hchanged⟩ :=
      (Workspace.writeThrough_strands_iff ht hc bundle.text.toUTF8).2 hstrands
    obtain ⟨hspace, hend⟩ := build_of_bundle hp hb
    rw [hspace, hend, Workspace.writeText, hw]
    exact ⟨⟨error, rfl⟩, hchanged⟩
  · rcases build_eq_error herror with hspace | ⟨bundle, -, hspace, hw⟩
    · rw [hspace]
      exact ⟨[], List.nil_prefix, FileSystem.free_root _, .refl ht rfl⟩
    · rw [hspace]
      exact Workspace.exists_hasMade_of_writeThrough ht hc hw
  · have hbuild : host.build config = ((host.build config).1, .ok bundle) := Prod.ext rfl hok
    obtain ⟨-, hw⟩ := build_eq_ok hbuild
    obtain ⟨hfits, hcwd, hgained⟩ := Workspace.gained_of_writeThrough ht hc hw
    exact ⟨hcwd, (Workspace.content?_eq_some_iff hc hfits.fault?_eq).2 hgained.toHasFile, hgained⟩

/-- A host whose files are an entry `a` and the module `b` that it imports. -/
def ofPair : Host where
  workspace := .ofSources [("a.js", "import b from './b';\na"), ("b.js", "b")]
  now := ⟨2024, 3, 5, 7, 8, 9⟩

/-- A name that no entry may have. -/
def longName : String :=
  String.ofList (List.replicate 300 'a')

/-- Settings for a build to the long name, in a directory of its own. -/
def toLongName : Config where
  entry := "a.js"
  output := "/".intercalate ["newdir", longName]

/-- The place of the long name. -/
theorem walk_toLongName :
    (ofPair.workspace.absolute toLongName.output).walk = ["w", "newdir", longName] := by
  have hslash : '/' ∉ longName.toList := by
    have hlist : longName.toList = List.replicate 300 'a' := String.toList_ofList
    intro h
    rw [hlist] at h
    exact absurd (List.eq_of_mem_replicate h) (by decide)
  have hdots : longName ≠ "" ∧ longName ≠ "." ∧ longName ≠ ".." := by decide +kernel
  have hn : ∀ name ∈ ["newdir", longName], Path.IsName name := by
    intro name hm
    simp only [List.mem_cons, List.not_mem_nil, or_false] at hm
    rcases hm with rfl | rfl
    · exact ⟨by decide, by decide, by decide, by decide⟩
    · exact ⟨hdots.1, hdots.2.1, hdots.2.2, hslash⟩
  exact Path.walk_absolute_intercalate rfl hn (List.cons_ne_nil _ _)

/-- A build of the pair to the long name strands: the directory is made for it. -/
theorem strands_toLongName :
    ofPair.workspace.Strands (ofPair.workspace.absolute toLongName.output) ∧
      (ofPair.workspace.makeDirectories
        (ofPair.workspace.absolute toLongName.output).parent).1.files.get? ["w", "newdir"] =
          some .directory := by
  have hc : (ofPair.workspace.absolute toLongName.output).Canonical := Path.canonical_absolute rfl
  have hwalk := walk_toLongName
  generalize ofPair.workspace.absolute toLongName.output = path at hc hwalk
  have hfits : Location.fits ["w", "newdir", longName] = false := by decide +kernel
  have hparent : path.parent ∈ Location.spellings ["w", "newdir"] := by
    have hp := hc.parent.1.mem_spellings.2
    rwa [hc.parent.2, hwalk] at hp
  simp only [Location.spellings, List.mem_cons, List.not_mem_nil, or_false] at hparent
  have hvacant : ofPair.workspace.files.Vacant ["w", "newdir"] := by decide +kernel
  rcases hparent with hparent | hparent
  all_goals
    rw [hparent]
    refine ⟨Workspace.strands_of_fits_eq_false hc ?_ ?_ ?_, ?_⟩
    · rw [hparent]
      decide +kernel
    · rw [hwalk]
      exact hvacant
    · rw [hwalk]
      exact hfits
    · decide +kernel

/-- The pair can be built to a place two directories down, neither of which is there. A build to a
place below its module `b` changes nothing. One to a long name leaves the directory above it. -/
theorem build_strands_iff_pair :
    (ofPair.build { entry := "a.js", output := "out/js/all.js" }).1.workspace.content?
      "/w/out/js/all.js" = some "b\na".toUTF8 ∧
    ofPair.workspace.files.Gained
      (ofPair.build { entry := "a.js", output := "out/js/all.js" }).1.workspace.files
      ["w", "out", "js", "all.js"] "b\na".toUTF8 ∧
    (ofPair.build { entry := "a.js", output := "b.js/js/all.js" }).1.workspace =
      ofPair.workspace ∧
    (ofPair.build toLongName).1.workspace ≠ ofPair.workspace := by
  have ht : ofPair.workspace.files.IsTree := by decide +kernel
  have hmade : (ofPair.build { entry := "a.js", output := "out/js/all.js" }).2 =
      .ok ⟨"/w/a.js", "b\na", ["/w/b.js", "/w/a.js"]⟩ := by decide +kernel
  have hrefused : (ofPair.build { entry := "a.js", output := "b.js/js/all.js" }).2 =
      .error (.file .notADirectory "/w/b.js/js") := by decide +kernel
  have hbundle : ofPair.workspace.bundle toLongName.extension toLongName.entry =
      .ok ⟨"/w/a.js", "b\na", ["/w/b.js", "/w/a.js"]⟩ := by decide +kernel
  obtain ⟨-, hcontent, hgained⟩ := (build_strands_iff ht rfl).2.2 _ hmade
  have hstranded : (∃ error, (ofPair.build toLongName).2 = .error error) ∧
      (ofPair.build toLongName).1.workspace ≠ ofPair.workspace :=
    (build_strands_iff ht rfl).1.2 ⟨⟨_, hbundle⟩, strands_toLongName.1⟩
  refine ⟨hcontent, hgained, ?_, hstranded.2⟩
  by_contra hchanged
  have hstrands := ((build_strands_iff ht rfl).1.1 ⟨⟨_, hrefused⟩, hchanged⟩).2
  revert hstrands
  decide +kernel

/-- A build is refused because the name of its output is too long, and leaves a directory that it
has made for it. -/
theorem build_refused_stranded :
    ofPair.workspace.files.IsTree ∧
    (∃ error, (ofPair.build toLongName).2 = .error error) ∧
    ofPair.workspace.files.get? ["w", "newdir"] = none ∧
    (ofPair.build toLongName).1.workspace.files.get? ["w", "newdir"] = some .directory := by
  have ht : ofPair.workspace.files.IsTree := by decide +kernel
  have hbundle : ofPair.workspace.bundle toLongName.extension toLongName.entry =
      .ok ⟨"/w/a.js", "b\na", ["/w/b.js", "/w/a.js"]⟩ := by decide +kernel
  have hc : (ofPair.workspace.absolute toLongName.output).Canonical := Path.canonical_absolute rfl
  obtain ⟨hstrands, hmade⟩ := strands_toLongName
  obtain ⟨hspace, hend⟩ := build_of_bundle rfl hbundle
  obtain ⟨error, hw⟩ := Workspace.exists_error_of_strands ht hc hstrands
  refine ⟨ht, ⟨error, ?_⟩, by decide +kernel, ?_⟩
  · rw [hend, Workspace.writeText, hw]
    rfl
  · rw [hspace, Workspace.writeText, Workspace.workspace_writeThrough_of_error hc hw]
    exact hmade

end Host

end Bundler
