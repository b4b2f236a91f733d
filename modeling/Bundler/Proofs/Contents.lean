import Bundler.Proofs.FileNames
import Bundler.Proofs.Location
import Mathlib.Data.Set.Basic

/-!
# The contents of files

What the operations on files do to the content at a path. An operation is described by the location
that it works on.

* `Workspace.content?_eq_some_iff`: the path of a file is a chain of directories with the file at
  its end (`FileSystem.HasFile`).
* `Workspace.walk_of_locate`, `Workspace.walk_of_destination`: however a path is written, it leads
  to the location that its absolute form names.
* `FileSystem.IsPartOf`: one file system has all that the other one has. Making directories only
  adds something (`Workspace.isPartOf_makeDirectories`), and a removal leaves a part
  (`Workspace.isPartOf_delete`).
* `Workspace.content?_writeThrough_self`: a file that is written has the content, and
  `Workspace.content?_writeThrough`: no other file gets another one.
* `Workspace.content?_edit`: a change to the files leaves the content of a file alone that it does
  not touch (`Workspace.touched`).
-/

namespace Bundler

/-! ## Files at locations -/

namespace FileSystem

variable {files others : FileSystem} {location : Location} {content : ByteArray}

/-- A regular file with the content stands at the location, and only directories above it. -/
structure HasFile (files : FileSystem) (location : Location) (content : ByteArray) : Prop where
  found : files.get? location = some (.file content)
  above : ∀ outer, outer <+: location → outer ≠ location → files.get? outer = some .directory

/-- Whatever the one file system has, the other one has at the same location. -/
def IsPartOf (files others : FileSystem) : Prop :=
  ∀ location entry, files.get? location = some entry → others.get? location = some entry

theorem IsPartOf.refl (files : FileSystem) : files.IsPartOf files :=
  fun _ _ h => h

theorem IsPartOf.trans {third : FileSystem} (h : files.IsPartOf others)
    (h' : others.IsPartOf third) : files.IsPartOf third :=
  fun location entry hf => h' location entry (h location entry hf)

/-- An erasure leaves a part. -/
theorem isPartOf_erase (files : FileSystem) (location : Location) :
    (files.erase location).IsPartOf files := by
  intro other entry h
  by_cases hroot : location = []
  · -- An erasure at the root leaves the root alone.
    subst hroot
    have hnone : (files.erase []).entries = [] := by simp [erase]
    unfold get? at h ⊢
    split at h
    · next hl => rwa [if_pos hl]
    · rw [hnone] at h
      cases h
  · rw [get?_erase hroot] at h
    split at h
    · cases h
    · exact h

/-- An insertion where nothing stands only adds something. -/
theorem isPartOf_insert {entry : Entry} (h : files.get? location = none) :
    files.IsPartOf (files.insert location entry) := by
  intro other found hf
  have hroot : location ≠ [] := by
    rintro rfl
    cases h
  rw [get?_insert hroot, if_neg]
  · exact hf
  · rintro rfl
    cases h.symm.trans hf

/-- A walk that is possible in a part is possible in the whole. -/
theorem IsPartOf.resolve (h : files.IsPartOf others) {start : Location} {components : List String}
    (hr : files.resolve start components = .ok location) :
    others.resolve start components = .ok location := by
  induction components generalizing start with
  | nil =>
    unfold FileSystem.resolve at hr ⊢
    split at hr
    · next hs =>
      obtain ⟨entry, he⟩ := Option.isSome_iff_exists.1 hs
      rw [h start entry he]
      exact hr
    · cases hr
  | cons component rest ih =>
    unfold FileSystem.resolve at hr ⊢
    split at hr
    · cases hr
    · cases hr
    · next hd =>
      simp only [h start .directory hd]
      split at hr
      · next hstay => rw [if_pos hstay]; exact ih hr
      · next hmove =>
        rw [if_neg hmove]
        split at hr
        · next hup => rw [if_pos hup]; exact ih hr
        · next hdown => rw [if_neg hdown]; exact ih hr

/-- A file of a part is a file of the whole. -/
theorem HasFile.of_isPartOf (h : files.HasFile location content) (hp : files.IsPartOf others) :
    others.HasFile location content where
  found := hp _ _ h.found
  above outer ho hne := hp _ _ (h.above outer ho hne)

/-- An insertion elsewhere leaves a file alone, unless it takes the place of a directory. -/
theorem HasFile.insert (h : files.HasFile location content) {other : Location} {entry : Entry}
    (hroot : other ≠ []) (hne : other ≠ location) (hd : files.get? other ≠ some .directory) :
    (files.insert other entry).HasFile location content where
  found := by rw [get?_insert hroot, if_neg hne.symm]; exact h.found
  above outer ho hol := by
    have hdirectory := h.above outer ho hol
    rw [get?_insert hroot, if_neg]
    · exact hdirectory
    · rintro rfl
      exact hd hdirectory

/-- An erasure leaves a file alone, unless the file stands there or below. -/
theorem HasFile.erase (h : files.HasFile location content) {other : Location} (hroot : other ≠ [])
    (hne : ¬ other <+: location) : (files.erase other).HasFile location content where
  found := by rw [get?_erase hroot, if_neg hne]; exact h.found
  above outer ho hol := by
    rw [get?_erase hroot, if_neg fun hp => hne (hp.trans ho)]
    exact h.above outer ho hol

/-- A walk along names passes through directories. -/
theorem directory_of_resolve_names {start : Location} {names : List String}
    (hn : ∀ name ∈ names, Path.IsName name) (h : files.resolve start names = .ok location)
    {outer : List String} (ho : outer <+: names) (hne : outer ≠ names) :
    files.get? (start ++ outer) = some .directory := by
  induction names generalizing start outer with
  | nil => exact absurd (List.prefix_nil.1 ho) hne
  | cons name rest ih =>
    obtain ⟨hempty, hdot, hup, -⟩ := hn name List.mem_cons_self
    unfold resolve at h
    split at h
    · cases h
    · cases h
    · next hd =>
      simp only [hempty, hdot, hup, decide_false, Bool.or_self, Bool.false_eq_true, if_false] at h
      cases outer with
      | nil => rwa [List.append_nil]
      | cons first inner =>
        obtain ⟨rfl, hinner⟩ := List.cons_prefix_cons.1 ho
        have := ih (fun other hm => hn other (List.mem_cons_of_mem _ hm)) h hinner
          fun he => hne (he ▸ rfl)
        rwa [List.append_assoc, List.singleton_append] at this

/-- Where directories lead to something, a walk along the names reaches it. -/
theorem resolve_names_of_directory {start : Location} {names : List String}
    (hn : ∀ name ∈ names, Path.IsName name)
    (hd : ∀ outer, outer <+: names → outer ≠ names → files.get? (start ++ outer) = some .directory)
    (hs : (files.get? (start ++ names)).isSome = true) :
    files.resolve start names = .ok (start ++ names) := by
  induction names generalizing start with
  | nil =>
    rw [List.append_nil] at hs ⊢
    rw [resolve, if_pos hs]
  | cons name rest ih =>
    obtain ⟨hempty, hdot, hup, -⟩ := hn name List.mem_cons_self
    have hstart : files.get? start = some .directory := by
      have := hd [] List.nil_prefix (List.cons_ne_nil name rest).symm
      rwa [List.append_nil] at this
    have hassoc : start ++ name :: rest = start ++ [name] ++ rest := by simp
    rw [hassoc] at hs ⊢
    have hbelow : ∀ outer, outer <+: rest → outer ≠ rest →
        files.get? (start ++ [name] ++ outer) = some .directory := by
      intro outer ho hne
      have := hd (name :: outer) (List.cons_prefix_cons.2 ⟨rfl, ho⟩) fun he =>
        hne (List.cons.inj he).2
      rwa [List.append_assoc, List.singleton_append]
    unfold resolve
    simp only [hstart, hempty, hdot, hup, decide_false, Bool.or_self, Bool.false_eq_true, if_false]
    exact ih (fun other hm => hn other (List.mem_cons_of_mem _ hm)) hbelow hs

/-- A walk ends where its components say, without a look at the files. -/
theorem eq_of_resolve {start : Location} {components : List String}
    (hs : ∀ name ∈ start, Path.IsName name) (hc : ∀ component ∈ components, '/' ∉ component.toList)
    (h : files.resolve start components = .ok location) :
    location = (components.foldl (Path.enter true) start.reverse).reverse := by
  induction components generalizing start with
  | nil =>
    unfold resolve at h
    split at h
    · cases h; simp
    · cases h
  | cons component rest ih =>
    have hrest : ∀ other ∈ rest, '/' ∉ other.toList := fun other ho =>
      hc other (List.mem_cons_of_mem _ ho)
    have hnames : ∀ name ∈ Path.enter true start.reverse component, Path.IsName name :=
      Path.isName_of_mem_enter (fun name hn => hs name (List.mem_reverse.1 hn))
        (hc component List.mem_cons_self)
    rw [List.foldl_cons]
    unfold resolve at h
    split at h
    · cases h
    · cases h
    · split at h
      · next hstay =>
        rw [Path.enter_of_stay hstay]
        exact ih hs hrest h
      · next hmove =>
        -- The names after this step are those of the place where the walk goes on.
        have hstep : ∀ next : Location, next.reverse = Path.enter true start.reverse component →
            files.resolve next rest = .ok location →
            location = (rest.foldl (Path.enter true)
              (Path.enter true start.reverse component)).reverse := by
          intro next hnext hr
          rw [← hnext] at hnames ⊢
          exact ih (fun name hn => hnames name (List.mem_reverse.2 hn)) hrest hr
        split at h
        · next hup =>
          refine hstep _ ?_ h
          rw [hup, Path.enter_up fun name hn => hs name (List.mem_reverse.1 hn), List.tail_reverse]
        · next hdown =>
          refine hstep _ ?_ h
          rw [Path.enter_of_down hmove hdown, List.reverse_append]
          rfl

end FileSystem

/-! ## What the operations do -/

namespace Workspace

variable {space made after other : Workspace} {path target : Path} {location : Location}
  {content : ByteArray}

/-- The other workspace has the same working directory, and all that this one has. -/
structure IsPartOf (space other : Workspace) : Prop where
  cwd_eq : other.cwd = space.cwd
  files : space.files.IsPartOf other.files

theorem IsPartOf.refl (space : Workspace) : space.IsPartOf space :=
  ⟨rfl, .refl _⟩

theorem IsPartOf.trans (h : space.IsPartOf made) (h' : made.IsPartOf after) :
    space.IsPartOf after :=
  ⟨h'.cwd_eq.trans h.cwd_eq, h.files.trans h'.files⟩

/-- Paths have the same absolute form wherever the working directory is the same. -/
theorem absolute_congr (h : other.cwd = space.cwd) : other.absolute path = space.absolute path := by
  rw [absolute, absolute, h]

/-- A path leads somewhere if no operation refuses it, and a walk along its components does. -/
theorem locate_eq_ok :
    space.locate path = .ok location ↔ path.fault? = none ∧
      space.files.resolve (space.start path) path.components = .ok location := by
  unfold locate
  cases path.fault? <;> simp

/-- A path leads to the same place in the whole. -/
theorem IsPartOf.locate (h : space.IsPartOf other) (hl : space.locate path = .ok location) :
    other.locate path = .ok location := by
  have hstart : other.start path = space.start path := by rw [start, start, h.cwd_eq]
  rw [locate_eq_ok] at hl ⊢
  rw [hstart]
  exact ⟨hl.1, h.files.resolve hl.2⟩

/-- What is found in a part is found in the whole. -/
theorem IsPartOf.get? (h : space.IsPartOf other) {entry : Entry}
    (hg : space.get? path = some entry) : other.get? path = some entry := by
  unfold Workspace.get? at hg ⊢
  split at hg
  · next hl =>
    rw [h.locate hl]
    exact h.files _ _ hg
  · cases hg

/-- A text that is read in a part is read in the whole. -/
theorem IsPartOf.readText (h : space.IsPartOf other) {text : String}
    (ht : space.readText path = .ok text) : other.readText path = .ok text := by
  unfold Workspace.readText at ht ⊢
  cases hg : space.get? path with
  | none => simp [hg] at ht
  | some entry => rwa [h.get? hg, ← hg]

/-- A file of a part is a file of the whole. -/
theorem IsPartOf.content? (h : space.IsPartOf other) (hc : space.content? path = some content) :
    other.content? path = some content := by
  unfold Workspace.content? at hc ⊢
  split at hc
  · next hg =>
    cases hc
    rw [h.get? hg]
  · cases hc

/-- A removal leaves a part. -/
theorem isPartOf_delete (space : Workspace) (path : Path) : (space.delete path).IsPartOf space := by
  unfold delete
  split
  · exact .refl space
  · exact ⟨rfl, FileSystem.isPartOf_erase _ _⟩

/-- Where something is removed, nothing stands any more. -/
theorem get?_delete (hl : space.locate path = .ok location) (hroot : location ≠ []) :
    (space.delete path).files.get? location = none := by
  rw [delete, hl]
  exact (FileSystem.get?_erase hroot).trans (if_pos List.prefix_rfl)

/-- A walk starts at a place that names lead to. -/
theorem isName_of_mem_start (rooted : space.cwd.isAbsolute = true) :
    ∀ name ∈ space.start path, Path.IsName name := by
  unfold start
  split
  · exact nofun
  · exact Path.isName_of_mem_walk rooted

/-- The absolute form of a path walks to where a walk along its components would end. -/
theorem walk_absolute_eq (rooted : space.cwd.isAbsolute = true) : (space.absolute path).walk =
    (path.components.foldl (Path.enter true) (space.start path).reverse).reverse := by
  unfold absolute
  rw [Path.walk_absolute rooted]
  unfold start
  split <;> rfl

/-- A path leads to the location that its absolute form names. -/
theorem walk_of_locate (rooted : space.cwd.isAbsolute = true)
    (h : space.locate path = .ok location) : (space.absolute path).walk = location := by
  rw [walk_absolute_eq rooted, eq_comm]
  exact FileSystem.eq_of_resolve (isName_of_mem_start rooted)
    (fun _ => Path.notMem_of_mem_components) (locate_eq_ok.1 h).2

/-- The components of a path behind which the empty ones are left out: its last name, and what
stands before it. -/
theorem components_of_dropWhile {name : String} {above : List String}
    (h : path.components.reverse.dropWhile (· = "") = name :: above) :
    ∃ blanks, (∀ blank ∈ blanks, blank = "") ∧ name ≠ "" ∧
      path.components = above.reverse ++ name :: blanks := by
  have hall := List.takeWhile_append_dropWhile (p := fun component => decide (component = ""))
    (l := path.components.reverse)
  have hname := List.head?_dropWhile_not (fun component => decide (component = ""))
    path.components.reverse
  rw [h] at hall hname
  refine ⟨(path.components.reverse.takeWhile (· = "")).reverse, fun blank hb => ?_, ?_, ?_⟩
  · simpa using List.all_eq_true.1 List.all_takeWhile blank (List.mem_reverse.1 hb)
  · simpa using hname
  · have hreverse := congrArg List.reverse hall
    simpa using hreverse.symm

/-- A walk along empty components stays. -/
theorem foldl_enter_blanks {blanks walked : List String} (h : ∀ blank ∈ blanks, blank = "") :
    blanks.foldl (Path.enter true) walked = walked := by
  induction blanks with
  | nil => rfl
  | cons blank rest ih =>
    rw [List.foldl_cons, h blank List.mem_cons_self, Path.enter_empty]
    exact ih fun other ho => h other (List.mem_cons_of_mem _ ho)

/-- The last name of a path belongs in the directory that the components before it lead to. -/
theorem destination_eq_ok (h : space.destination path = .ok location) :
    path.fault? = none ∧ ∃ name above directory,
      path.components.reverse.dropWhile (· = "") = name :: above ∧
      space.files.resolve (space.start path) above.reverse = .ok directory ∧
      space.files.get? directory = some .directory ∧ (name ≠ "." ∧ name ≠ "..") ∧
      location = directory ++ [name] := by
  unfold destination at h
  split at h
  · cases h
  next hfault =>
    split at h
    · cases h
    next name above hsplit =>
      split at h
      · cases h
      next directory hr =>
        split at h
        · cases h
        · cases h
        next hd =>
          split at h
          · cases h
          next hmove =>
            cases h
            simp only [Bool.or_eq_true, decide_eq_true_eq, not_or] at hmove
            exact ⟨hfault, name, above, directory, hsplit, hr, hd, hmove, rfl⟩

/-- A directory is made where nothing stands. -/
theorem makeDirectory_eq_ok (h : space.makeDirectory path = .ok made) :
    ∃ location, space.destination path = .ok location ∧ space.files.get? location = none ∧
      location.fits = true ∧ made = space.insert location .directory := by
  unfold makeDirectory at h
  split at h
  · cases h
  · cases h
  next location hd =>
    split at h
    · cases h
    next hfree =>
      split at h
      next hfits =>
        cases h
        exact ⟨location, hd, by simpa using hfree, hfits, rfl⟩
      · cases h

/-- A file is put where no directory stands. -/
theorem exists_destination_of_writeFile (h : space.writeFile path content = .ok after) :
    ∃ location, space.destination path = .ok location ∧
      space.files.get? location ≠ some .directory ∧ location.fits = true ∧
      after = space.insert location (.file content) := by
  unfold writeFile at h
  split at h
  · cases h
  next location hd =>
    split at h
    · cases h
    next hfree =>
      split at h
      next hfits =>
        cases h
        simp only [Bool.or_eq_true, decide_eq_true_eq, not_or] at hfree
        exact ⟨location, hd, hfree.2, hfits, rfl⟩
      · cases h

/-- The last name of a path belongs at the location that its absolute form names. -/
theorem walk_of_destination (rooted : space.cwd.isAbsolute = true)
    (h : space.destination path = .ok location) :
    (space.absolute path).walk = location ∧ location ≠ [] := by
  obtain ⟨-, name, above, directory, hsplit, hr, -, ⟨hdot, hup⟩, rfl⟩ := destination_eq_ok h
  refine ⟨?_, by simp⟩
  obtain ⟨blanks, hblank, hname, hcomponents⟩ := components_of_dropWhile hsplit
  have hslash : ∀ component ∈ above.reverse, '/' ∉ component.toList := fun component hc =>
    Path.notMem_of_mem_components (hcomponents ▸ List.mem_append_left _ hc)
  have hdirectory := FileSystem.eq_of_resolve (isName_of_mem_start rooted) hslash hr
  rw [walk_absolute_eq rooted, hcomponents, List.foldl_append, List.foldl_cons,
    foldl_enter_blanks hblank, Path.enter_of_down (by simp [hname, hdot]) hup,
    List.reverse_cons, ← hdirectory]

/-- A canonical path that operations take is walked along from the root by its names. -/
theorem locate_of_canonical (hc : path.Canonical) (hfault : path.fault? = none) :
    space.locate path = space.files.resolve [] path.walk := by
  obtain ⟨hn, hp⟩ := hc.mem_spellings
  have hstart : space.start path = [] := by rw [start, if_pos hc.isAbsolute]
  have hnames : space.files.resolve [] (Location.path path.walk).components =
      space.files.resolve [] path.walk := by
    rw [Path.components_path hn, FileSystem.resolve_empty]
    split
    · next he => rw [he, FileSystem.resolve_empty]
    · rfl
  unfold locate
  rw [hfault, hstart]
  simp only [Location.spellings, List.mem_cons, List.not_mem_nil, or_false] at hp
  rcases hp with hp | hp
  · rw [← hnames, ← hp]
  · rw [← hnames, hp, Path.components_slash, FileSystem.resolve_empty, ← hp]

/-- A path leads to the content of the file where it ends. -/
theorem content?_eq_some :
    space.content? path = some content ↔
      ∃ location, space.locate path = .ok location ∧
        space.files.get? location = some (.file content) := by
  unfold content? get?
  constructor
  · intro h
    split at h
    · next hg =>
      split at hg
      · next location hl =>
        cases h
        exact ⟨location, hl, hg⟩
      · cases hg
    · cases h
  · rintro ⟨location, hl, hf⟩
    simp only [hl, hf]

/-- A path that leads to a file is one that operations take. -/
theorem fault?_of_content? (h : space.content? path = some content) : path.fault? = none := by
  obtain ⟨location, hl, -⟩ := content?_eq_some.1 h
  exact (locate_eq_ok.1 hl).1

/-- A canonical path that operations take leads to a file exactly if its names lead through
directories to the file. -/
theorem content?_eq_some_iff (hc : path.Canonical) (hfault : path.fault? = none) :
    space.content? path = some content ↔ space.files.HasFile path.walk content := by
  obtain ⟨hn, -⟩ := hc.mem_spellings
  rw [content?_eq_some, locate_of_canonical hc hfault]
  constructor
  · rintro ⟨location, hl, hf⟩
    cases FileSystem.resolve_names hn hl
    exact ⟨hf, fun outer ho hne => FileSystem.directory_of_resolve_names hn hl ho hne⟩
  · intro h
    have hsome : (space.files.get? ([] ++ path.walk)).isSome = true :=
      Option.isSome_iff_exists.2 ⟨_, h.found⟩
    exact ⟨path.walk, FileSystem.resolve_names_of_directory hn h.above hsome, h.found⟩

/-- The names of a canonical path that leads to a file lead through directories to the file. -/
theorem hasFile_of_content? (hc : path.Canonical) (h : space.content? path = some content) :
    space.files.HasFile path.walk content :=
  (content?_eq_some_iff hc (fault?_of_content? h)).1 h

/-- Where a content is, there is a file. -/
theorem get?_of_content? (h : space.content? path = some content) :
    space.get? path = some (.file content) := by
  obtain ⟨location, hl, hf⟩ := content?_eq_some.1 h
  unfold get?
  rw [hl]
  exact hf

/-- A text is read from the content alone. -/
theorem readText_of_content? (h : space.content? path = some content)
    (h' : other.content? path = some content) : other.readText path = space.readText path := by
  unfold readText
  rw [get?_of_content? h, get?_of_content? h']

/-- A directory that is made is new. -/
theorem isPartOf_makeDirectory (h : space.makeDirectory path = .ok made) : space.IsPartOf made := by
  obtain ⟨location, -, hnone, -, rfl⟩ := makeDirectory_eq_ok h
  exact ⟨rfl, FileSystem.isPartOf_insert hnone⟩

/-- What each directory that is made keeps, all of them keep. -/
theorem makeMissing_induction {motive : Workspace → Prop} {paths : List Path}
    (make : ∀ {space made : Workspace} {path : Path}, path ∈ paths →
      space.makeDirectory path = .ok made → motive space → motive made) (h : motive space) :
    motive (space.makeMissing paths).1 := by
  induction paths generalizing space with
  | nil => exact h
  | cons path rest ih =>
    have hrest : ∀ {space made : Workspace} {path : Path}, path ∈ rest →
        space.makeDirectory path = .ok made → motive space → motive made :=
      fun hp => make (List.mem_cons_of_mem _ hp)
    unfold makeMissing
    split
    · exact ih hrest h
    · split
      · exact h
      · next hm => exact ih hrest (make List.mem_cons_self hm h)

/-- So do the directories on the way to a path. -/
theorem makeDirectories_induction {motive : Workspace → Prop}
    (make : ∀ {space made : Workspace} {step : Path}, step ∈ path.trail →
      space.makeDirectory step = .ok made → motive space → motive made) (h : motive space) :
    motive (space.makeDirectories path).1 := by
  have hmissing : motive
      (space.makeMissing (path.trail.filter fun step => !space.isRedundant step)).1 :=
    makeMissing_induction (fun hs => make (List.mem_of_mem_filter hs)) h
  unfold makeDirectories
  split
  · next hm => rwa [hm] at hmissing
  · next hm =>
    rw [hm] at hmissing
    split <;> exact hmissing

/-- What making a directory and putting the file in place keep, a write keeps. -/
theorem writeThrough_induction {motive : Workspace → Prop}
    (make : ∀ {space made : Workspace} {step : Path},
      space.makeDirectory step = .ok made → motive space → motive made)
    (write : ∀ {space after : Workspace}, space.writeFile path content = .ok after →
      motive space → motive after) (h : motive space) :
    motive (space.writeThrough path content).1 := by
  have hmade : motive
      (if path.parent = "" then (space, .ok ()) else space.makeDirectories path.parent).1 := by
    split
    · exact h
    · exact makeDirectories_induction (fun _ => make) h
  unfold writeThrough
  generalize (if path.parent = "" then (space, .ok ()) else space.makeDirectories path.parent) =
    directories at hmade
  obtain ⟨made, _ | _⟩ := directories
  · exact hmade
  · dsimp only at hmade ⊢
    split
    · exact hmade
    · next hw => exact write hw hmade

/-- Making a directory and those above it keeps all that there is. -/
theorem isPartOf_makeDirectories (space : Workspace) (path : Path) :
    space.IsPartOf (space.makeDirectories path).1 :=
  makeDirectories_induction (fun _ hm hp => hp.trans (isPartOf_makeDirectory hm)) (.refl space)

/-- A file is put at the location that the absolute form of its path names, where there was no
directory. -/
theorem writeFile_eq_ok (rooted : space.cwd.isAbsolute = true)
    (h : space.writeFile path content = .ok after) :
    after = space.insert (space.absolute path).walk (.file content) ∧
      (space.absolute path).walk ≠ [] ∧
      space.files.get? (space.absolute path).walk ≠ some .directory := by
  obtain ⟨location, hd, hfree, -, hafter⟩ := exists_destination_of_writeFile h
  obtain ⟨rfl, hroot⟩ := walk_of_destination rooted hd
  exact ⟨hafter, hroot, hfree⟩

/-- A write makes directories, and puts the file in place if they could be made. -/
theorem writeThrough_cases (space : Workspace) (path : Path) (content : ByteArray) :
    (space.IsPartOf (space.writeThrough path content).1 ∧
      ∃ error, (space.writeThrough path content).2 = .error error) ∨
    ∃ made, space.IsPartOf made ∧
      made.writeFile path content = .ok (space.writeThrough path content).1 ∧
      (space.writeThrough path content).2 = .ok () := by
  have hmade : space.IsPartOf
      (if path.parent = "" then (space, .ok ()) else space.makeDirectories path.parent).1 := by
    split
    · exact .refl space
    · exact isPartOf_makeDirectories space _
  unfold writeThrough
  generalize (if path.parent = "" then (space, .ok ()) else space.makeDirectories path.parent) =
    directories at hmade
  obtain ⟨made, _ | _⟩ := directories
  · exact .inl ⟨hmade, _, rfl⟩
  · dsimp only at hmade ⊢
    split
    · exact .inl ⟨hmade, _, rfl⟩
    · next hw => exact .inr ⟨made, hmade, hw, rfl⟩

/-- A write keeps the working directory. -/
theorem cwd_writeThrough (space : Workspace) (path : Path) (content : ByteArray) :
    (space.writeThrough path content).1.cwd = space.cwd := by
  rcases writeThrough_cases space path content with ⟨hp, -⟩ | ⟨made, hp, hw, -⟩
  · exact hp.cwd_eq
  · obtain ⟨location, -, -, -, hafter⟩ := exists_destination_of_writeFile hw
    rw [hafter]
    exact hp.cwd_eq

/-- The last name of a canonical path, and what stands before it, which leads to the same place as
the other names. -/
theorem exists_above_of_canonical (hc : path.Canonical) {init : Location} {last : String}
    (hwalk : path.walk = init ++ [last]) :
    ∃ above, path.components.reverse.dropWhile (· = "") = last :: above ∧
      ∀ files : FileSystem, files.resolve [] above.reverse = files.resolve [] init := by
  obtain ⟨hn, hp⟩ := hc.mem_spellings
  have hlast : last ≠ "" := (hn last (by simp [hwalk])).1
  have hcomponents : (Location.path path.walk).components = "" :: (init ++ [last]) := by
    rw [Path.components_path hn, if_neg (by simp [hwalk]), hwalk]
  -- In front of the names there are one or two empty components, where the walk stays.
  simp only [Location.spellings, List.mem_cons, List.not_mem_nil, or_false] at hp
  rcases hp with hp | hp
  · refine ⟨init.reverse ++ [""], ?_, fun files => ?_⟩
    · rw [hp, hcomponents]
      simp [hlast]
    · simp [FileSystem.resolve_empty]
  · refine ⟨init.reverse ++ ["", ""], ?_, fun files => ?_⟩
    · rw [hp, Path.components_slash, hcomponents]
      simp [hlast]
    · simp [FileSystem.resolve_empty]

/-- What a canonical path leads through, up to the place of its last name, are directories. -/
theorem directory_of_destination (hc : path.Canonical) (h : space.destination path = .ok location)
    {outer : Location} (ho : outer <+: path.walk) (hne : outer ≠ path.walk) :
    space.files.get? outer = some .directory := by
  obtain ⟨hn, -⟩ := hc.mem_spellings
  rcases List.eq_nil_or_concat path.walk with hnil | ⟨init, last, hwalk⟩
  · rw [hnil] at ho hne
    exact absurd (List.prefix_nil.1 ho) hne
  rw [List.concat_eq_append] at hwalk
  have hinit : ∀ name ∈ init, Path.IsName name := fun name hm => hn name (by simp [hwalk, hm])
  obtain ⟨above, hdrop, hresolve⟩ := exists_above_of_canonical hc hwalk
  obtain ⟨-, name, above', directory, hdrop', hr, hd, -⟩ := destination_eq_ok h
  obtain ⟨rfl, rfl⟩ := List.cons.inj (hdrop.symm.trans hdrop')
  rw [start, if_pos hc.isAbsolute, hresolve] at hr
  cases FileSystem.resolve_names hinit hr
  rw [hwalk] at ho hne
  have ho' : outer <+: init := (List.prefix_concat_iff.1 ho).resolve_left hne
  by_cases hi : outer = init
  · rw [hi]
    exact hd
  · exact FileSystem.directory_of_resolve_names hinit hr ho' hi

/-- The absolute form of a path that starts at the root walks to the same names. -/
theorem walk_absolute_of_isAbsolute (rooted : space.cwd.isAbsolute = true)
    (h : path.isAbsolute = true) : (space.absolute path).walk = path.walk := by
  rw [walk_absolute_eq rooted, start, if_pos h, Path.walk, h]
  rfl

/-- A file that is written has the content. -/
theorem content?_writeThrough_self (rooted : space.cwd.isAbsolute = true) (hc : path.Canonical)
    (h : (space.writeThrough path content).2 = .ok ()) :
    (space.writeThrough path content).1.content? path = some content := by
  rcases writeThrough_cases space path content with ⟨-, error, he⟩ | ⟨made, hp, hw, -⟩
  · cases h.symm.trans he
  have hmade : made.cwd.isAbsolute = true := hp.cwd_eq ▸ rooted
  obtain ⟨hafter, hroot, -⟩ := writeFile_eq_ok hmade hw
  rw [walk_absolute_of_isAbsolute hmade hc.isAbsolute] at hafter hroot
  obtain ⟨location, hd, -⟩ := exists_destination_of_writeFile hw
  rw [content?_eq_some_iff hc (destination_eq_ok hd).1, hafter]
  refine ⟨?_, fun outer ho hne => ?_⟩
  · rw [insert, FileSystem.get?_insert hroot, if_pos rfl]
  · rw [insert, FileSystem.get?_insert hroot, if_neg hne]
    exact directory_of_destination hc hd ho hne

/-- A write to another location leaves a file alone. -/
theorem content?_writeThrough_of_walk_ne {text : ByteArray} (rooted : space.cwd.isAbsolute = true)
    (hc : target.Canonical) (hne : target.walk ≠ (space.absolute path).walk)
    (h : space.content? target = some content) :
    (space.writeThrough path text).1.content? target = some content := by
  have hfile := hasFile_of_content? hc h
  rw [content?_eq_some_iff hc (fault?_of_content? h)]
  rcases writeThrough_cases space path text with ⟨hp, -⟩ | ⟨made, hp, hw, -⟩
  · exact hfile.of_isPartOf hp.files
  obtain ⟨hafter, hroot, hfree⟩ := writeFile_eq_ok (hp.cwd_eq ▸ rooted) hw
  rw [absolute_congr hp.cwd_eq] at hafter hroot hfree
  rw [hafter]
  exact (hfile.of_isPartOf hp.files).insert hroot hne.symm hfree

/-- A write to another path leaves a file alone. -/
theorem content?_writeThrough {text : ByteArray} (rooted : space.cwd.isAbsolute = true)
    (hc : target.Canonical) (htr : target.root ≠ "//") (hpr : (space.absolute path).root ≠ "//")
    (hne : target ≠ space.absolute path) (h : space.content? target = some content) :
    (space.writeThrough path text).1.content? target = some content :=
  content?_writeThrough_of_walk_ne rooted hc
    (fun he => hne (hc.eq_of_walk_eq (Path.canonical_absolute rooted) htr hpr he)) h

/-- The paths of the files that a change may give another content, in their absolute form: the path
that is written or removed, and all that lies in a directory that is removed. -/
def touched (space : Workspace) : Edit → Set Path
  | .write path _ => {space.absolute path}
  | .delete path => {target | target = space.absolute path ∨
      space.get? path = some .directory ∧ (space.absolute path).walk <+: target.walk}
  | .makeDirectories _ => ∅

end Workspace

/-- The path that a change names. -/
def Edit.path : Edit → Path
  | .write path _ => path
  | .delete path => path
  | .makeDirectories path => path

namespace Workspace

variable {space : Workspace} {target : Path} {content : ByteArray} {edit : Edit}

/-- A change to the files keeps the working directory. -/
theorem cwd_edit (space : Workspace) (edit : Edit) : (space.edit edit).1.cwd = space.cwd := by
  cases edit <;> rw [Workspace.edit]
  case write path content => exact cwd_writeThrough space path content
  case delete path => exact (isPartOf_delete space path).cwd_eq.symm
  case makeDirectories path => exact (isPartOf_makeDirectories space path).cwd_eq

/-- A change that is refused has made directories at most. -/
theorem isPartOf_edit_of_error {error : Error} (h : (space.edit edit).2 = .error error) :
    space.IsPartOf (space.edit edit).1 := by
  cases edit <;> rw [Workspace.edit] at h ⊢
  case write path content =>
    rcases writeThrough_cases space path content with ⟨hp, -⟩ | ⟨made, -, -, hok⟩
    · exact hp
    · cases hok.symm.trans h
  case delete path => cases h
  case makeDirectories path => exact isPartOf_makeDirectories space path

/-- A removal leaves a file alone that is neither removed itself nor lies in a directory that is. -/
theorem content?_delete {path : Path} (rooted : space.cwd.isAbsolute = true)
    (hc : target.Canonical) (htr : target.root ≠ "//") (hpr : (space.absolute path).root ≠ "//")
    (hne : target ∉ space.touched (.delete path)) (h : space.content? target = some content) :
    (space.delete path).content? target = some content := by
  have hfile := hasFile_of_content? hc h
  rw [content?_eq_some_iff hc (fault?_of_content? h)]
  unfold delete
  split
  · exact hfile
  · next location hl =>
    obtain rfl := walk_of_locate rooted hl
    have hget : space.get? path = space.files.get? (space.absolute path).walk := by
      unfold get?
      rw [hl]
    have hbelow : ¬ (space.absolute path).walk <+: target.walk := by
      intro hprefix
      apply hne
      by_cases he : (space.absolute path).walk = target.walk
      · exact .inl (hc.eq_of_walk_eq (Path.canonical_absolute rooted) htr hpr he.symm)
      · refine .inr ⟨?_, hprefix⟩
        rw [hget]
        exact hfile.above _ hprefix he
    refine hfile.erase ?_ hbelow
    intro hroot
    rw [hroot] at hbelow
    exact hbelow List.nil_prefix

/-- A change to the files leaves a file alone that it does not touch. -/
theorem content?_edit (rooted : space.cwd.isAbsolute = true) (hc : target.Canonical)
    (htr : target.root ≠ "//") (her : (space.absolute edit.path).root ≠ "//")
    (hne : target ∉ space.touched edit) (h : space.content? target = some content) :
    (space.edit edit).1.content? target = some content := by
  cases edit <;> rw [Workspace.edit]
  case write path text => exact content?_writeThrough rooted hc htr her hne h
  case delete path => exact content?_delete rooted hc htr her hne h
  case makeDirectories path => exact (isPartOf_makeDirectories space path).content? h

end Workspace

end Bundler
