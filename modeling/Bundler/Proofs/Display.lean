import Bundler.Proofs.Location

/-!
# Paths as messages show them

The way from the working directory to a path is up to what both share and down again (`way`). It
only leads down exactly if the path lies below the working directory (`LeadsBelow`, `way_eq`,
`head?_way`). `Path.display` decides this by the first two characters of the way, and a name that
starts with two dots looks like the way up there (`take_text_eq_iff`). So a path below the working
directory is shown relative to it unless the first name on the way starts with two dots, and every
other path is shown as it is. What is shown always leads to where the path leads (`display_spec`).
-/

namespace Bundler

namespace Path

/-! ## The way from a directory to a path -/

/-- What both lists start with is taken away. -/
theorem afterShared_append (shared rest : List String) :
    afterShared shared (shared ++ rest) = ([], rest) := by
  induction shared with
  | nil => simp [afterShared]
  | cons name more ih => rw [List.cons_append, afterShared, if_pos rfl, ih]

/-- Something remains of the first list, unless the second one starts with it. -/
theorem afterShared_fst_ne_nil {lefts rights : List String} (h : ¬ lefts <+: rights) :
    (afterShared lefts rights).1 ≠ [] := by
  fun_induction afterShared lefts rights with
  | case1 left lefts rights ih =>
    exact ih fun hprefix => h (List.cons_prefix_cons.2 ⟨rfl, hprefix⟩)
  | case2 => exact List.cons_ne_nil _ _
  | case3 lefts rights _ =>
    rintro rfl
    exact h List.nil_prefix

/-- The names between the slashes of a canonical path are those that it walks to. -/
theorem Canonical.filter_components {path : Path} (h : path.Canonical) :
    path.components.filter (· ≠ "") = path.walk := by
  obtain ⟨hn, hp⟩ := h.mem_spellings
  have hnames : (Location.path path.walk).components.filter (· ≠ "") = path.walk := by
    rw [components_path hn, List.filter_cons_of_neg (by simp)]
    split
    · next hnone => rw [hnone]; rfl
    · exact List.filter_eq_self.2 fun name hm => decide_eq_true (hn name hm).1
  simp only [Location.spellings, List.mem_cons, List.not_mem_nil, or_false] at hp
  rcases hp with hp | hp
  · rwa [← hp] at hnames
  · rw [hp, components_slash, List.filter_cons_of_neg (by simp), ← hp, hnames]

/-- The steps that lead from a directory to a path: up to what both share, and down from there. -/
def way (start path : Path) : List String :=
  let remaining := afterShared start.walk path.walk
  List.replicate remaining.1.length ".." ++ remaining.2

/-- Steps as a path, which is `.` if there are none. -/
def text (steps : List String) : Path :=
  if steps = [] then "." else "/".intercalate steps

/-- The relative path is the text of the way. -/
theorem relative_eq {start path : Path} (hs : start.Canonical) (hp : path.Canonical) :
    start.relative path = text (start.way path) := by
  unfold relative
  simp only [hs.filter_components, hp.filter_components, List.isEmpty_iff]
  rfl

/-! ## The way to a path below the directory -/

variable {cwd path : Path} {rest steps : List String}

/-- The path lies below the working directory, or is that itself: the rest leads there. -/
def LeadsBelow (cwd path : Path) (rest : List String) : Prop :=
  (cwd.absolute path).walk = cwd.walk ++ rest

instance : Decidable (LeadsBelow cwd path rest) :=
  inferInstanceAs (Decidable (_ = _))

/-- The way to a path below the directory leads down. -/
theorem way_eq (h : LeadsBelow cwd path rest) : cwd.way (cwd.absolute path) = rest := by
  rw [way, h, afterShared_append]
  rfl

/-- The way to any other path begins with a step up. -/
theorem head?_way (h : ¬ ∃ rest, LeadsBelow cwd path rest) :
    (cwd.way (cwd.absolute path)).head? = some ".." := by
  have hremains : (afterShared cwd.walk (cwd.absolute path).walk).1 ≠ [] :=
    afterShared_fst_ne_nil fun ⟨rest, hrest⟩ => h ⟨rest, hrest.symm⟩
  rw [way]
  cases hup : (afterShared cwd.walk (cwd.absolute path).walk).1 with
  | nil => exact absurd hup hremains
  | cons => rfl

/-! ## The first two characters -/

/-- The name starts with two dots. -/
def Dotted (name : String) : Prop :=
  ['.', '.'] <+: name.toList

instance (name : String) : Decidable (Dotted name) :=
  inferInstanceAs (Decidable (['.', '.'] <+: name.toList))

/-- Two dots are the first two characters of names with slashes between them exactly if the first
name starts with them. -/
theorem take_intercalate_eq_iff {name : String} {more : List String} :
    ("/".intercalate (name :: more)).toList.take 2 = ['.', '.'] ↔ Dotted name := by
  -- Behind the first name there is a slash, if anything.
  obtain ⟨behind, hbehind, htext⟩ : ∃ behind : List Char, behind.head? ≠ some '.' ∧
      ("/".intercalate (name :: more)).toList = name.toList ++ behind := by
    cases more with
    | nil => exact ⟨[], nofun, by simp⟩
    | cons next others => exact ⟨'/' :: ("/".intercalate (next :: others)).toList, by simp, by simp⟩
  rw [htext, Dotted]
  match hname : name.toList with
  | [] => cases behind <;> simp_all
  | [c] => cases behind <;> simp_all
  | c :: d :: _ => simp [eq_comm]

/-- So it is for the text of steps. -/
theorem take_text_eq_iff :
    (text steps).toList.take 2 = ['.', '.'] ↔ ∃ name ∈ steps.head?, Dotted name := by
  cases steps with
  | nil => simp [text]
  | cons name more =>
    rw [text, if_neg (List.cons_ne_nil _ _), take_intercalate_eq_iff]
    simp

/-! ## Where the text leads -/

/-- The text of names is not absolute. -/
theorem isAbsolute_text (hn : ∀ name ∈ steps, IsName name) : (text steps).isAbsolute = false := by
  unfold text
  split
  · rfl
  · exact beq_false_of_ne (head?_intercalate hn)

/-- Seen from an absolute directory, the text of names leads down by these names. -/
theorem walk_absolute_text (rooted : cwd.isAbsolute = true) (hn : ∀ name ∈ steps, IsName name) :
    (cwd.absolute (text steps)).walk = cwd.walk ++ steps := by
  have hfold : (text steps).components.foldl (enter true) cwd.walk.reverse =
      steps.reverse ++ cwd.walk.reverse := by
    unfold text
    split
    · next hnone =>
      have hstay : enter true cwd.walk.reverse "." = cwd.walk.reverse := enter_of_stay rfl
      rw [hnone]
      exact hstay
    · next hsome => rw [components_intercalate hn hsome, foldl_enter_names hn]
  rw [walk_absolute rooted, isAbsolute_text hn, if_neg Bool.false_ne_true, hfold,
    List.reverse_append, List.reverse_reverse, List.reverse_reverse]

/-- A relative path has no slash in front. -/
theorem root_of_relative (h : path.isAbsolute = false) : path.root = "" := by
  have hhead : path.toList.head? ≠ some '/' := ne_of_beq_false h
  unfold root
  split <;> simp_all

/-- What is added to a path does not make it absolute. -/
theorem isAbsolute_append {added : String} (h : path ≠ "") :
    isAbsolute (path ++ added) = path.isAbsolute := by
  unfold isAbsolute
  cases hpath : path.toList with
  | nil => exact absurd (String.toList_eq_nil_iff.1 hpath) h
  | cons c rest => rw [String.toList_append, hpath]; rfl

/-- A path starts with exactly two slashes if there is no third one behind the first two. -/
theorem root_eq_double_iff :
    path.root = "//" ↔ ∃ more, path.toList = '/' :: '/' :: more ∧ more.head? ≠ some '/' := by
  constructor
  · intro h
    unfold root at h
    split at h
    · exact absurd h (by decide)
    · next more hnot ht =>
      refine ⟨more, ht, fun hthird => ?_⟩
      obtain ⟨behind, rfl⟩ := List.head?_eq_some_iff.1 hthird
      exact hnot behind rfl
    · exact absurd h (by decide)
    · exact absurd h (by decide)
  · rintro ⟨more, ht, hthird⟩
    unfold root
    rw [ht]
    split
    · simp_all
    · rfl
    · next hnot ht => exact absurd (List.cons.inj ht).2.symm (hnot _)
    · simp_all

/-- What is added behind a path does not make exactly two slashes in front of it, unless a second
one is added to the first. -/
theorem root_append_ne {added : Path} (single : path.root ≠ "//") (given : path ≠ "")
    (hsecond : path ≠ "/" ∨ added.isAbsolute = false) : root (path ++ added) ≠ "//" := by
  intro hdouble
  obtain ⟨more, ht, hthird⟩ := root_eq_double_iff.1 hdouble
  rw [String.toList_append] at ht
  rcases hpath : path.toList with _ | ⟨first, _ | ⟨second, behind⟩⟩
  · exact given (String.toList_eq_nil_iff.1 hpath)
  · rw [hpath] at ht
    obtain ⟨rfl, hadded⟩ := List.cons.inj ht
    rcases hsecond with hne | hrelative
    · exact hne (String.toList_injective hpath)
    · simp [isAbsolute, show added.toList = '/' :: more from hadded] at hrelative
  · -- Both slashes are in front already, and the path itself would be without a third one.
    rw [hpath] at ht
    obtain ⟨rfl, hrest⟩ := List.cons.inj ht
    obtain ⟨rfl, rfl⟩ := List.cons.inj hrest
    refine single (root_eq_double_iff.2 ⟨behind, hpath, ?_⟩)
    cases behind with
    | nil => simp
    | cons third rest => exact hthird

/-- A path below a directory starts with exactly two slashes only if one of the two does. -/
theorem root_join_ne (rooted : cwd.isAbsolute = true) (single : cwd.root ≠ "//")
    (plain : path.root ≠ "//") : (cwd.join path).root ≠ "//" := by
  have given : cwd ≠ "" := by
    rintro rfl
    cases rooted
  unfold join
  split
  · exact plain
  · next hrelative =>
    split
    · exact root_append_ne single given (.inr (Bool.eq_false_iff.2 hrelative))
    · next hend =>
      rw [String.append_assoc]
      refine root_append_ne single given (.inl ?_)
      rintro rfl
      exact hend (by decide)

/-- Normalizing keeps the slashes in front of an absolute path. -/
theorem root_normalize (rooted : path.isAbsolute = true) : path.normalize.root = path.root := by
  have hn := isName_of_mem_walk rooted
  unfold normalize
  rcases root_of_isAbsolute rooted with hroot | hroot <;> rw [hroot]
  · rw [if_neg (by simp [String.append_eq_empty_iff])]
    exact (root_path hn).1
  · rw [if_neg (by simp [String.append_eq_empty_iff]), ← Location.slash_path]
    exact (root_path hn).2

/-- Only a path that starts with exactly two slashes leads to one that does. -/
theorem root_absolute_ne (rooted : cwd.isAbsolute = true) (single : cwd.root ≠ "//")
    (plain : path.root ≠ "//") : (cwd.absolute path).root ≠ "//" := by
  rw [absolute, root_normalize (isAbsolute_join rooted)]
  exact root_join_ne rooted single plain

/-- The path is shown as it is if the way to it starts with two dots, and else the way is shown. -/
theorem display_eq (hc : cwd.Canonical) (given : path ≠ "") : cwd.display path =
    if ∃ name ∈ (cwd.way (cwd.absolute path)).head?, Dotted name then path
    else text (cwd.way (cwd.absolute path)) := by
  unfold display
  rw [if_neg given]
  simp only [relative_eq hc (canonical_absolute hc.isAbsolute), take_text_eq_iff]

/-- The names below the working directory. -/
theorem isName_of_leadsBelow (hc : cwd.Canonical) (h : LeadsBelow cwd path rest) :
    ∀ name ∈ rest, IsName name := fun name hm =>
  (canonical_absolute hc.isAbsolute).mem_spellings.1 name (h ▸ List.mem_append_right _ hm)

/-- A path below the working directory is shown by the names that lead there from it, unless the
first of them starts with two dots. -/
theorem display_of_plain (hc : cwd.Canonical) (given : path ≠ "") (h : LeadsBelow cwd path rest)
    (hplain : ∀ name ∈ rest.head?, ¬ Dotted name) : cwd.display path = text rest := by
  rw [display_eq hc given, way_eq h, if_neg]
  rintro ⟨name, hm, hdots⟩
  exact hplain name hm hdots

/-- Every other path is shown as it is. -/
theorem display_of_dotted (hc : cwd.Canonical) (given : path ≠ "")
    (h : ∀ rest, LeadsBelow cwd path rest → ∃ name ∈ rest.head?, Dotted name) :
    cwd.display path = path := by
  rw [display_eq hc given, if_pos]
  by_cases hway : ∃ rest, LeadsBelow cwd path rest
  · obtain ⟨rest, hway⟩ := hway
    rw [way_eq hway]
    exact h rest hway
  · exact ⟨"..", head?_way hway, by decide⟩

/-- The names that lead to a path from the working directory lead to it when they are seen from
there. -/
theorem absolute_text (hc : cwd.Canonical) (single : cwd.root ≠ "//") (plain : path.root ≠ "//")
    (h : LeadsBelow cwd path rest) : cwd.absolute (text rest) = cwd.absolute path := by
  have hn := isName_of_leadsBelow hc h
  have htext : (text rest).root ≠ "//" := by
    rw [root_of_relative (isAbsolute_text hn)]
    decide
  have hwalk : (cwd.absolute (text rest)).walk = (cwd.absolute path).walk := by
    rw [walk_absolute_text hc.isAbsolute hn, h]
  exact (canonical_absolute hc.isAbsolute).eq_of_walk_eq (canonical_absolute hc.isAbsolute)
    (root_absolute_ne hc.isAbsolute single htext) (root_absolute_ne hc.isAbsolute single plain)
    hwalk

/-- A path that lies below the working directory is shown relative to it, unless the first name on
the way starts with two dots. Then, and if the path lies elsewhere, it is shown as it is. In any
case, what is shown leads to where the path leads. -/
theorem display_spec (hc : cwd.Canonical) (single : cwd.root ≠ "//") (given : path ≠ "")
    (plain : path.root ≠ "//") :
    (∀ rest, LeadsBelow cwd path rest → (∀ name ∈ rest.head?, ¬ Dotted name) →
      cwd.display path = if rest = [] then "." else "/".intercalate rest) ∧
    ((∀ rest, LeadsBelow cwd path rest → ∃ name ∈ rest.head?, Dotted name) →
      cwd.display path = path) ∧
    cwd.absolute (cwd.display path) = cwd.absolute path := by
  refine ⟨fun rest => display_of_plain hc given, display_of_dotted hc given, ?_⟩
  by_cases hshown : ∃ rest, LeadsBelow cwd path rest ∧ ∀ name ∈ rest.head?, ¬ Dotted name
  · obtain ⟨rest, hway, hplain⟩ := hshown
    rw [display_of_plain hc given hway hplain, absolute_text hc single plain hway]
  · have hdots : ∀ rest, LeadsBelow cwd path rest → ∃ name ∈ rest.head?, Dotted name := by
      intro rest hway
      refine Classical.byContradiction fun hnone => hshown ⟨rest, hway, fun name hm hdots => ?_⟩
      exact hnone ⟨name, hm, hdots⟩
    rw [display_of_dotted hc given hdots]

/-- From `/w`, the path `/w/./lib//b.js` is shown as `lib/b.js`, and `/v/../x.js`, which lies
elsewhere, as it is. -/
theorem display_spec_lib : display "/w" "/w/./lib//b.js" = "lib/b.js" ∧
    display "/w" "/v/../x.js" = "/v/../x.js" ∧
    absolute "/w" (display "/w" "/v/../x.js") = "/x.js" := by
  have hc : Canonical "/w" := ⟨["w"], by simp [IsName], by decide⟩
  have hbelow : LeadsBelow "/w" "/w/./lib//b.js" ["lib", "b.js"] := by decide
  have haway : ∀ rest, ¬ LeadsBelow "/w" "/v/../x.js" rest := by
    intro rest h
    have hnames : ["x.js"] = ["w"] ++ rest := h
    exact absurd (List.cons.inj hnames).1 (by decide)
  obtain ⟨hshown, -⟩ :=
    display_spec hc (by decide) (show "/w/./lib//b.js" ≠ "" by decide) (by decide)
  obtain ⟨-, hother, hsame⟩ :=
    display_spec hc (by decide) (show "/v/../x.js" ≠ "" by decide) (by decide)
  refine ⟨(hshown _ hbelow (by decide)).trans (by decide), hother fun rest h => ?_, ?_⟩
  · exact absurd h (haway rest)
  · exact hsame.trans (by decide)

/-- A file below the working directory is shown by its whole path if its name starts with two
dots. -/
theorem display_dotted : LeadsBelow "/w" "/w/..a.js" ["..a.js"] ∧
    display "/w" "/w/..a.js" ≠ "/".intercalate ["..a.js"] := by
  decide

end Path

end Bundler
