import Bundler.Proofs.Canonical

/-!
# Paths and the locations that they name

The text of a canonical path and the names that it walks to (`Path.walk`) say the same: the path is
written with these names (`Canonical.mem_spellings`), and only a second slash in front makes a
difference (`Canonical.eq_of_walk_eq`). The walk along a path as seen from a directory goes on where
the walk to the directory ends (`walk_absolute`).
-/

namespace Bundler

namespace Path

section
variable {rooted : Bool} {walked : List String} {component : String}

/-- An empty component and a dot stay where the walk is. -/
theorem enter_of_stay (h : (component = "" || component = ".") = true) :
    enter rooted walked component = walked := by
  unfold enter
  exact if_pos h

@[simp] theorem enter_empty : enter rooted walked "" = walked :=
  enter_of_stay rfl

/-- A component that neither stays nor goes up goes down. -/
theorem enter_of_down (h : ¬ (component = "" || component = ".") = true) (hup : component ≠ "..") :
    enter rooted walked component = component :: walked := by
  unfold enter
  rw [if_neg h, if_neg hup]

/-- From names two dots go up, and stay at the root. -/
theorem enter_up (hw : ∀ name ∈ walked, IsName name) : enter true walked ".." = walked.tail := by
  cases walked with
  | nil => rfl
  | cons inner outer =>
    have hinner : inner ≠ ".." := (hw inner List.mem_cons_self).2.2.1
    simp [enter, hinner]

/-- A walk along names goes down by all of them. -/
theorem foldl_enter_names {names : List String} (hn : ∀ name ∈ names, IsName name) :
    names.foldl (enter rooted) walked = names.reverse ++ walked := by
  induction names generalizing walked with
  | nil => rfl
  | cons name rest ih =>
    obtain ⟨hempty, hdot, hup, -⟩ := hn name List.mem_cons_self
    rw [List.foldl_cons, enter_of_down (by simp [hempty, hdot]) hup,
      ih fun other ho => hn other (List.mem_cons_of_mem _ ho)]
    simp

end

/-- The components of the path of a location are its names behind empty ones. -/
theorem components_path {names : Location} (hn : ∀ name ∈ names, IsName name) :
    names.path.components = "" :: (if names = [] then [""] else names) := by
  rw [Location.path, components_slash]
  split
  · next he => subst he; rfl
  · next hne => rw [components_intercalate hn hne]

/-- A canonical path walks to the names that it is written with. -/
theorem walk_of_mem_spellings {names : Location} {path : Path}
    (hn : ∀ name ∈ names, IsName name) (hp : path ∈ names.spellings) : path.walk = names := by
  have hfold : names.path.components.foldl (enter true) [] = names.reverse := by
    rw [components_path hn]
    split
    · next he => subst he; rfl
    · simp [foldl_enter_names hn]
  have habsolute := Canonical.isAbsolute ⟨names, hn, hp⟩
  unfold walk
  rw [habsolute]
  simp only [Location.spellings, List.mem_cons, List.not_mem_nil, or_false] at hp
  rcases hp with rfl | rfl
  · rw [hfold, List.reverse_reverse]
  · rw [components_slash, List.foldl_cons, enter_empty, hfold, List.reverse_reverse]

/-- A canonical path is written with the names that it walks to. -/
theorem Canonical.mem_spellings {path : Path} (h : path.Canonical) :
    (∀ name ∈ path.walk, IsName name) ∧ path ∈ Location.spellings path.walk := by
  obtain ⟨names, hn, hp⟩ := h
  rw [walk_of_mem_spellings hn hp]
  exact ⟨hn, hp⟩

/-- Names with slashes between them do not start with a slash. -/
theorem head?_intercalate {names : Location} (hn : ∀ name ∈ names, IsName name) :
    ("/".intercalate names).toList.head? ≠ some '/' := by
  cases names with
  | nil => simp
  | cons name rest =>
    obtain ⟨hempty, -, -, hslash⟩ := hn name List.mem_cons_self
    cases hl : name.toList with
    | nil => exact absurd (String.toList_eq_nil_iff.1 hl) hempty
    | cons c more =>
      have hc : c ≠ '/' := by
        rintro rfl
        simp [hl] at hslash
      cases rest <;> simp [hl, hc]

/-- In front of what does not start with a slash, one slash or two are all that there are. -/
theorem root_slash {path : Path} (h : path.isAbsolute = false) :
    root ("/" ++ path) = "/" ∧ root ("//" ++ path) = "//" := by
  have hhead : path.toList.head? ≠ some '/' := ne_of_beq_false h
  unfold root
  simp only [String.toList_append, show "/".toList = ['/'] from rfl,
    show "//".toList = ['/', '/'] from rfl, List.cons_append, List.nil_append]
  cases hl : path.toList with
  | nil => exact ⟨rfl, rfl⟩
  | cons c rest =>
    have hc : c ≠ '/' := fun he => hhead (by rw [hl, he]; rfl)
    constructor
    · split <;> simp_all
    · split
      · simp_all
      · rfl
      · next hnot ht => exact absurd (List.cons.inj ht).2.symm (hnot _)
      · simp_all

/-- The path of a location has one slash in front, and there is room for a second one. -/
theorem root_path {names : Location} (hn : ∀ name ∈ names, IsName name) :
    root names.path = "/" ∧ root ("/" ++ names.path) = "//" := by
  rw [Location.slash_path]
  exact root_slash (beq_false_of_ne (head?_intercalate hn))

/-- A canonical path is normalized. -/
theorem Canonical.normalize_eq {path : Path} (h : path.Canonical) : path.normalize = path := by
  obtain ⟨hn, hp⟩ := h.mem_spellings
  have htext : path.root ++ "/".intercalate path.walk = path := by
    generalize path.walk = names at hn hp
    simp only [Location.spellings, List.mem_cons, List.not_mem_nil, or_false] at hp
    rcases hp with rfl | rfl
    · rw [(root_path hn).1, Location.path]
    · rw [(root_path hn).2, Location.slash_path]
  unfold normalize
  rw [htext, if_neg]
  rintro rfl
  cases h.isAbsolute

/-- A canonical path is its own absolute form. -/
theorem Canonical.absolute_eq {base path : Path} (h : path.Canonical) :
    base.absolute path = path := by
  rw [absolute, join, if_pos h.isAbsolute, h.normalize_eq]

/-- A canonical path without a second slash in front is the path of the location that it walks
to. -/
theorem Canonical.eq_path {path : Path} (h : path.Canonical) (single : path.root ≠ "//") :
    path = Location.path path.walk := by
  obtain ⟨hn, hp⟩ := h.mem_spellings
  simp only [Location.spellings, List.mem_cons, List.not_mem_nil, or_false] at hp
  rcases hp with hp | hp
  · exact hp
  · rw [hp] at single
    exact absurd (root_path hn).2 single

/-- Of two canonical paths without a second slash in front, those that walk to the same names are
the same. -/
theorem Canonical.eq_of_walk_eq {path other : Path} (hp : path.Canonical) (ho : other.Canonical)
    (hpr : path.root ≠ "//") (hor : other.root ≠ "//") (h : path.walk = other.walk) :
    path = other := by
  rw [hp.eq_path hpr, h, ← ho.eq_path hor]

/-- The components before and after a slash. -/
theorem components_append_slash (base path : Path) :
    components (base ++ "/" ++ path) = components base ++ components path := by
  have hsplit : (base.toList ++ '/' :: path.toList).splitOnP (· == '/') =
      base.toList.splitOnP (· == '/') ++ path.toList.splitOnP (· == '/') :=
    List.splitOnP_append_cons _ _ rfl
  simp only [components, List.splitOn, String.toList_append, List.append_assoc]
  rw [show "/".toList ++ path.toList = '/' :: path.toList from rfl, hsplit, List.map_append]

/-- A slash at the end puts an empty component at the end. -/
theorem components_slash_end (base : Path) : components (base ++ "/") = components base ++ [""] := by
  have happend := components_append_slash base ""
  rwa [String.append_empty] at happend

/-- The walk along a path below the root starts where the walk along the base ends. -/
theorem walk_join {base path : Path} (h : base.isAbsolute = true) :
    (base.join path).walk = (path.components.foldl (enter true)
      (if path.isAbsolute then [] else base.walk.reverse)).reverse := by
  have habsolute : (base.join path).isAbsolute = true := isAbsolute_join h
  unfold walk
  rw [habsolute, h]
  unfold join
  split
  · rfl
  · split
    · next hend =>
      -- The base ends with a slash, hence with an empty component, where the walk stays.
      obtain ⟨start, rfl⟩ : ∃ start : String, base = start ++ "/" := by
        rcases Bool.or_eq_true_iff.1 hend with he | hlast
        · simp [isAbsolute, of_decide_eq_true he] at h
        · obtain ⟨chars, hchars⟩ := List.getLast?_eq_some_iff.1 (eq_of_beq hlast)
          refine ⟨String.ofList chars, String.toList_injective ?_⟩
          simpa using hchars
      rw [components_append_slash, components_slash_end, List.foldl_append, List.foldl_append,
        List.reverse_reverse, List.foldl_cons, enter_empty, List.foldl_nil]
    · rw [components_append_slash, List.foldl_append, List.reverse_reverse]

/-- What stands on the walk along a path as seen from an absolute directory: the names of the
directory, unless the path starts at the root, and then those of the path. -/
theorem walk_absolute {base path : Path} (h : base.isAbsolute = true) :
    (base.absolute path).walk = (path.components.foldl (enter true)
      (if path.isAbsolute then [] else base.walk.reverse)).reverse := by
  have hjoin : (base.join path).isAbsolute = true := isAbsolute_join h
  unfold absolute
  rw [walk_of_mem_spellings (isName_of_mem_walk hjoin) (normalize_mem_spellings hjoin), walk_join h]

/-- Names as seen from an absolute directory lead below the directory. -/
theorem walk_absolute_intercalate {base : Path} {names : Location} (h : base.isAbsolute = true)
    (hn : ∀ name ∈ names, IsName name) (hne : names ≠ []) :
    (base.absolute ("/".intercalate names)).walk = base.walk ++ names := by
  have hrelative : isAbsolute ("/".intercalate names) = false :=
    beq_false_of_ne (head?_intercalate hn)
  rw [walk_absolute h, components_intercalate hn hne, hrelative, if_neg Bool.false_ne_true,
    foldl_enter_names hn, List.reverse_append, List.reverse_reverse, List.reverse_reverse]

end Path

end Bundler
