import Bundler.Workspace

/-!
# Canonical paths

A path is canonical if it is one of the two that lead to a location without detours
(`Path.Canonical`). What `Path.absolute` returns is canonical whenever the directory that it starts
from is absolute (`canonical_absolute`), because only names remain on the stack of a walk below the
root (`isName_of_mem_walk`).
-/

namespace Bundler

/-- No piece of a list that is cut at a value has the value in it. -/
theorem notMem_of_mem_splitOn {α : Type} [BEq α] [LawfulBEq α] {sep : α} {values piece : List α}
    (h : piece ∈ values.splitOn sep) : sep ∉ piece := by
  induction values generalizing piece with
  | nil => simp_all
  | cons value rest ih =>
    rw [List.splitOn_cons_eq_if_modifyHead] at h
    split at h
    · rcases List.mem_cons.1 h with rfl | h
      · simp
      · exact ih h
    · next hne =>
      have hv : sep ≠ value := fun he => hne (by simp [he])
      cases hs : rest.splitOn sep with
      | nil => exact absurd hs (List.splitOn_ne_nil sep rest)
      | cons first others =>
        rw [hs] at h ih
        rcases List.mem_cons.1 h with rfl | h
        · exact fun hm => ih List.mem_cons_self ((List.mem_cons.1 hm).resolve_left hv)
        · exact ih (List.mem_cons_of_mem _ h)

/-- The two absolute paths without detours that lead to a location. -/
def Location.spellings (location : Location) : List Path :=
  [location.path, "/" ++ location.path]

/-- The other one has two slashes in front. -/
theorem Location.slash_path (location : Location) :
    "/" ++ location.path = "//" ++ "/".intercalate location := by
  rw [Location.path, ← String.append_assoc]
  rfl

namespace Path

/-- A component that leads down, to what has this name. -/
def IsName (component : String) : Prop :=
  component ≠ "" ∧ component ≠ "." ∧ component ≠ ".." ∧ '/' ∉ component.toList

/-- The path leads down from the root by names. -/
def Canonical (path : Path) : Prop :=
  ∃ names : Location, (∀ name ∈ names, IsName name) ∧ path ∈ names.spellings

/-- No component has a slash in it. -/
theorem notMem_of_mem_components {path : Path} {component : String}
    (h : component ∈ path.components) : '/' ∉ component.toList := by
  obtain ⟨piece, hp, rfl⟩ := List.mem_map.1 h
  rw [String.toList_ofList]
  exact notMem_of_mem_splitOn hp

/-- Below the root the stack holds names only. -/
theorem isName_of_mem_enter {walked : List String} {component : String}
    (hw : ∀ name ∈ walked, IsName name) (hc : '/' ∉ component.toList) :
    ∀ name ∈ enter true walked component, IsName name := by
  unfold enter
  split
  · exact hw
  · next hstay =>
    simp only [Bool.or_eq_true, decide_eq_true_eq, not_or] at hstay
    split
    · cases walked with
      | nil => simp
      | cons inner outer =>
        have hinner : inner ≠ ".." := (hw inner List.mem_cons_self).2.2.1
        simp only [if_neg hinner]
        exact fun name hn => hw name (List.mem_cons_of_mem _ hn)
    · next hup =>
      intro name hn
      rcases List.mem_cons.1 hn with rfl | hn
      · exact ⟨hstay.1, hstay.2, hup, hc⟩
      · exact hw name hn

/-- The walk along an absolute path leads down by names. -/
theorem isName_of_mem_walk {path : Path} (h : path.isAbsolute = true) :
    ∀ name ∈ path.walk, IsName name := by
  -- The stack starts empty and each component keeps the names on it: the induction needs any stack.
  have hfold : ∀ (components walked : List String), (∀ c ∈ components, '/' ∉ c.toList) →
      (∀ name ∈ walked, IsName name) →
      ∀ name ∈ components.foldl (enter true) walked, IsName name := by
    intro components
    induction components with
    | nil => exact fun walked _ hw => hw
    | cons component rest ih =>
      intro walked hc hw
      exact ih _ (fun c hm => hc c (List.mem_cons_of_mem _ hm))
        (isName_of_mem_enter hw (hc component List.mem_cons_self))
  intro name hn
  rw [walk, List.mem_reverse, h] at hn
  exact hfold _ [] (fun _ => notMem_of_mem_components) nofun name hn

/-- An absolute path starts with one slash or with two. -/
theorem root_of_isAbsolute {path : Path} (h : path.isAbsolute = true) :
    path.root = "/" ∨ path.root = "//" := by
  unfold root
  split
  · exact .inl rfl
  · exact .inr rfl
  · exact .inl rfl
  · next hnot =>
    unfold isAbsolute at h
    cases hl : path.toList with
    | nil => simp [hl] at h
    | cons c rest =>
      rw [hl, List.head?_cons] at h
      exact absurd (hl.trans (by rw [Option.some.inj (eq_of_beq h)])) (hnot rest)

/-- A normalized absolute path is written with the names that it walks to. -/
theorem normalize_mem_spellings {path : Path} (h : path.isAbsolute = true) :
    path.normalize ∈ Location.spellings path.walk := by
  unfold normalize
  rcases root_of_isAbsolute h with hr | hr <;> rw [hr]
  · simp [Location.spellings, Location.path, String.append_eq_empty_iff]
  · rw [← Location.slash_path]
    simp [Location.spellings, String.append_eq_empty_iff]

/-- Normalizing an absolute path makes it canonical. -/
theorem canonical_normalize {path : Path} (h : path.isAbsolute = true) :
    path.normalize.Canonical :=
  ⟨path.walk, isName_of_mem_walk h, normalize_mem_spellings h⟩

/-- Below an absolute directory every path is absolute. -/
theorem isAbsolute_join {base path : Path} (h : base.isAbsolute = true) :
    (base.join path).isAbsolute = true := by
  unfold isAbsolute at h
  have hhead : ∀ tail : String, (base ++ tail).isAbsolute = true := by
    intro tail
    unfold isAbsolute
    cases hl : base.toList with
    | nil => simp [hl] at h
    | cons c rest => simpa [hl] using h
  unfold join
  split
  · assumption
  · split
    · exact hhead path
    · rw [String.append_assoc]
      exact hhead _

/-- A path seen from an absolute directory is canonical. -/
theorem canonical_absolute {base path : Path} (h : base.isAbsolute = true) :
    (base.absolute path).Canonical :=
  canonical_normalize (isAbsolute_join h)

/-- A slash in front puts an empty component in front. -/
theorem components_slash (path : Path) : components ("/" ++ path) = "" :: components path := by
  simp [components, List.splitOn_cons_eq_if_modifyHead]

/-- The components of names with slashes between them are the names. -/
theorem components_intercalate {names : Location} (h : ∀ name ∈ names, IsName name)
    (hne : names ≠ []) : components ("/".intercalate names) = names := by
  unfold components
  rw [String.toList_intercalate]
  have hsep : ∀ chars ∈ names.map String.toList, '/' ∉ chars := by
    intro chars hc
    obtain ⟨name, hn, rfl⟩ := List.mem_map.1 hc
    exact (h name hn).2.2.2
  have hsplit := List.splitOn_intercalate '/' hsep (by simpa using hne)
  have hback : String.ofList ∘ String.toList = id := by funext name; simp
  rw [show "/".toList = ['/'] from rfl, hsplit, List.map_map, hback, List.map_id]

/-- A canonical path is absolute. -/
theorem Canonical.isAbsolute {path : Path} (h : path.Canonical) : path.isAbsolute = true := by
  obtain ⟨names, -, hp⟩ := h
  simp only [Location.spellings, List.mem_cons, List.not_mem_nil, or_false] at hp
  rcases hp with rfl | rfl <;> simp [Location.path, Path.isAbsolute]

end Path

end Bundler
