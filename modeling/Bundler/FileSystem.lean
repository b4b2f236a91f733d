/-!
# File systems

A file system is a finite table of directories and regular files. An entry is found by its
`Location`, the names on the way from the root to it; the root itself is always a directory. There
are no links and no permissions, and a name has a limited number of bytes (`Location.fits`). `get?`
is the view of a file system, and each operation says what it does to the view: `get?_insert`,
`get?_erase`. `resolve` walks along the components of a path as a system call does, so each name
that it passes through has to be a directory.
-/

namespace Bundler

/-- A place in a file system: the names from the root down. -/
abbrev Location := List String

/-- The most bytes that a name may have. -/
def Location.byteLimit : Nat := 255

/-- The last name of the location is one that an entry may have. -/
def Location.fits (location : Location) : Bool :=
  location.getLast?.all (·.utf8ByteSize ≤ byteLimit)

/-- What stands at a location. -/
inductive Entry where
  | directory
  | file (content : ByteArray)

/-- Files are equal if they have the same bytes. -/
instance : DecidableEq Entry
  | .directory, .directory => isTrue rfl
  | .directory, .file _ | .file _, .directory => isFalse nofun
  | .file left, .file right =>
    match ByteArray.instDecidableEq left right with
    | isTrue same => isTrue (same ▸ rfl)
    | isFalse different => isFalse fun h => different (Entry.file.inj h)

/-- Why an operation on files is refused. -/
inductive FileFault where
  | noSuchFile
  | fileExists
  | notADirectory
  | isADirectory
  | nameTooLong
  | nullCharacter
deriving DecidableEq, Repr

/-- The number by which systems know the fault. A null character is noticed before a system is
asked. -/
def FileFault.code? : FileFault → Option Nat
  | .noSuchFile => some 2
  | .fileExists => some 17
  | .notADirectory => some 20
  | .isADirectory => some 21
  | .nameTooLong => some 36
  | .nullCharacter => none

/-- The fault in words. -/
def FileFault.description : FileFault → String
  | .noSuchFile => "No such file or directory"
  | .fileExists => "File exists"
  | .notADirectory => "Not a directory"
  | .isADirectory => "Is a directory"
  | .nameTooLong => "File name too long"
  | .nullCharacter => "embedded null byte"

/-- A finite table of entries. -/
structure FileSystem where
  entries : List (Location × Entry)

namespace FileSystem

/-- The file system that has no entry but the root. -/
def empty : FileSystem := ⟨[]⟩

/-- What stands at a location. -/
def get? (files : FileSystem) (location : Location) : Option Entry :=
  if location = [] then some .directory else files.entries.lookup location

/-- The file system with the entry at the location, in place of what stood there. -/
def insert (files : FileSystem) (location : Location) (entry : Entry) : FileSystem :=
  ⟨(location, entry) :: files.entries.filter (·.1 ≠ location)⟩

/-- The file system without the location and all that lies below it. -/
def erase (files : FileSystem) (location : Location) : FileSystem :=
  ⟨files.entries.filter fun slot => !location.isPrefixOf slot.1⟩

@[simp] theorem get?_root (files : FileSystem) : files.get? [] = some .directory := rfl

/-- Dropping slots does not change what is found elsewhere. -/
private theorem lookup_filter (slots : List (Location × Entry)) (keep : Location → Bool)
    (location : Location) :
    (slots.filter (keep ·.1)).lookup location =
      if keep location then slots.lookup location else none := by
  induction slots with
  | nil => cases keep location <;> rfl
  | cons slot rest ih =>
    obtain ⟨place, entry⟩ := slot
    rw [List.filter_cons]
    by_cases same : location = place
    · subst same
      cases kept : keep location with
      | true => simp
      | false => rw [if_neg (by simp), ih, kept]; rfl
    · have other : (location == place) = false := beq_eq_false_iff_ne.2 same
      split <;> simp only [List.lookup_cons, other, ih]

/-- An insertion is seen at its location and nowhere else. -/
theorem get?_insert {files : FileSystem} {location other : Location} {entry : Entry}
    (h : location ≠ []) :
    (files.insert location entry).get? other =
      if other = location then some entry else files.get? other := by
  unfold get? insert
  by_cases same : other = location
  · subst same; simp [h]
  · have elsewhere : (other == location) = false := beq_eq_false_iff_ne.2 same
    simp only [List.lookup_cons, elsewhere,
      lookup_filter files.entries (fun place => decide (place ≠ location)), same]
    simp [same]

/-- An erasure is seen at its location and below, and nowhere else. -/
theorem get?_erase {files : FileSystem} {location other : Location} (h : location ≠ []) :
    (files.erase location).get? other =
      if location <+: other then none else files.get? other := by
  unfold get? erase
  rw [lookup_filter files.entries (fun place => !location.isPrefixOf place)]
  by_cases below : location <+: other
  · have : other ≠ [] := by rintro rfl; simp_all
    rw [if_neg this, if_pos below, List.isPrefixOf_iff_prefix.2 below]; rfl
  · have : location.isPrefixOf other = false :=
      Bool.eq_false_iff.2 (mt List.isPrefixOf_iff_prefix.1 below)
    rw [if_neg below, this]; rfl

/-- The location that a walk along the components reaches from `start`, which has to exist. An empty
component and `.` stay, `..` goes up; the root is its own parent. -/
def resolve (files : FileSystem) (start : Location) : List String → Except FileFault Location
  | [] => if (files.get? start).isSome then .ok start else .error .noSuchFile
  | component :: rest =>
    match files.get? start with
    | none => .error .noSuchFile
    | some (.file _) => .error .notADirectory
    | some .directory =>
      if component = "" || component = "." then files.resolve start rest
      else if component = ".." then files.resolve start.dropLast rest
      else files.resolve (start ++ [component]) rest

/-- What a walk reaches exists. -/
theorem isSome_of_resolve {files : FileSystem} {start location : Location}
    {components : List String} (h : files.resolve start components = .ok location) :
    (files.get? location).isSome = true := by
  induction components generalizing start with
  | nil =>
    unfold resolve at h
    split at h
    · next found => injection h with h; exact h ▸ found
    · contradiction
  | cons component rest ih =>
    unfold resolve at h
    split at h
    · contradiction
    · contradiction
    · split at h
      · exact ih h
      · split at h <;> exact ih h

end FileSystem

end Bundler
