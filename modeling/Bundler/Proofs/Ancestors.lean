import Bundler.Proofs.Location

/-!
# The directories above a path

The operations on the text of a path, for a canonical path: what stands before its last name is the
path of the location above (`Path.parent_spelled`), and a walk along it meets the locations on the
way down from the root in order, in the same spelling (`Path.trail_spelled`). `lead` is what the
spelling has in front of the path of the location: nothing, or a second slash. What a walk meets are
beginnings of the path, so operations that take the path take them too (`Path.fault?_of_mem_trail`).
-/

namespace Bundler

namespace Location

/-- The names of a location, with a slash in front of each. -/
def chars (names : Location) : List Char :=
  names.flatMap fun name => '/' :: name.toList

/-- The locations on the way from `base` down along the names, without `base`. -/
def downFrom (base : Location) : List String → List Location
  | [] => []
  | name :: rest => (base ++ [name]) :: downFrom (base ++ [name]) rest

/-- What is met on the way down is on the way. -/
theorem prefix_of_mem_downFrom {base location : Location} {names : List String}
    (h : location ∈ base.downFrom names) : location <+: base ++ names := by
  induction names generalizing base with
  | nil => cases h
  | cons name rest ih =>
    rw [List.append_cons]
    rcases List.mem_cons.1 h with rfl | h
    · exact List.prefix_append _ _
    · exact ih h

/-- What lies above a location lies on the way to the place before its last name. -/
theorem prefix_dropLast {outer location : Location} (ho : outer <+: location)
    (hne : outer ≠ location) : outer <+: location.dropLast := by
  rcases List.eq_nil_or_concat location with rfl | ⟨init, last, rfl⟩
  · exact absurd (List.prefix_nil.1 ho) hne
  · rw [List.concat_eq_append] at ho hne ⊢
    rw [List.dropLast_concat]
    exact (List.prefix_concat_iff.1 ho).resolve_left hne

/-- No location below the root lies on the way to the place before its last name. -/
theorem not_prefix_dropLast {location : Location} (hne : location ≠ []) :
    ¬ location <+: location.dropLast := by
  intro hp
  have hle := hp.length_le
  have hpos := List.length_pos_iff.2 hne
  rw [List.length_dropLast] at hle
  omega

/-- The way down along some names and then along others. -/
theorem downFrom_append (base : Location) (names others : List String) :
    base.downFrom (names ++ others) = base.downFrom names ++ (base ++ names).downFrom others := by
  induction names generalizing base with
  | nil => simp [downFrom]
  | cons name rest ih =>
    rw [List.cons_append, downFrom, downFrom, ih, List.append_cons base name rest,
      List.cons_append]

theorem chars_cons (name : String) (rest : Location) :
    chars (name :: rest) = '/' :: (name.toList ++ rest.chars) :=
  List.flatMap_cons

theorem chars_concat (init : Location) (last : String) :
    chars (init ++ [last]) = init.chars ++ '/' :: last.toList := by
  simp [chars]

/-- The path of a location below the root, character by character. -/
theorem toList_path {names : Location} (h : names ≠ []) : names.path.toList = names.chars := by
  rw [path, String.toList_append, String.toList_intercalate]
  induction names with
  | nil => exact absurd rfl h
  | cons name rest ih =>
    cases rest with
    | nil => simp [chars]
    | cons next others =>
      rw [List.map_cons, List.map_cons, List.intercalate_cons_cons, ← List.map_cons]
      have htail := ih (List.cons_ne_nil _ _)
      simp only [show "/".toList = ['/'] from rfl, List.singleton_append] at htail ⊢
      rw [List.append_assoc, List.singleton_append, htail, ← chars_cons]

/-- The path of a location with something in front of it. -/
def spelled (names : Location) (lead : String) : Path :=
  lead ++ names.path

theorem toList_spelled {names : Location} {lead : String} (h : names ≠ []) :
    (names.spelled lead).toList = lead.toList ++ names.chars := by
  rw [spelled, String.toList_append, toList_path h]

end Location

namespace Path

/-- What may stand in front of the path of a location: nothing, or a second slash. -/
def IsLead (lead : String) : Prop :=
  lead = "" ∨ lead = "/"

/-- A canonical path is the one of the location that it walks to, with a lead. -/
theorem Canonical.exists_lead {path : Path} (h : path.Canonical) :
    ∃ lead, IsLead lead ∧ path = Location.spelled path.walk lead := by
  obtain ⟨-, hp⟩ := h.mem_spellings
  simp only [Location.spellings, List.mem_cons, List.not_mem_nil, or_false] at hp
  rcases hp with hp | hp
  · exact ⟨"", .inl rfl, by rwa [Location.spelled, String.empty_append]⟩
  · exact ⟨"/", .inr rfl, hp⟩

section
variable {lead : String} {names : Location} {path : Path}

/-- The path of a location with a lead is one of its spellings. -/
theorem spelled_mem_spellings (hl : IsLead lead) : names.spelled lead ∈ names.spellings := by
  rcases hl with rfl | rfl <;> simp [Location.spellings, Location.spelled]

/-- The path of a location with a lead is canonical, and walks to the location. -/
theorem canonical_spelled (hl : IsLead lead) (hn : ∀ name ∈ names, IsName name) :
    (names.spelled lead).Canonical ∧ (names.spelled lead).walk = names :=
  ⟨⟨names, hn, spelled_mem_spellings hl⟩, walk_of_mem_spellings hn (spelled_mem_spellings hl)⟩

/-- Below the root it ends with the last name. -/
theorem toList_spelled_concat {init : Location} {last : String} :
    (Location.spelled (init ++ [last]) lead).toList =
      (lead.toList ++ init.chars) ++ '/' :: last.toList := by
  rw [Location.toList_spelled (by simp), Location.chars_concat, List.append_assoc]

/-- The names of a location below the root do not end with a slash. -/
theorem exists_last_of_ne_nil (hn : ∀ name ∈ names, IsName name) (hne : names ≠ []) :
    ∃ front c, names.chars = front ++ [c] ∧ c ≠ '/' := by
  rcases List.eq_nil_or_concat names with hnil | ⟨init, last, rfl⟩
  · exact absurd hnil hne
  rw [List.concat_eq_append] at hn ⊢
  obtain ⟨hempty, -, -, hslash⟩ := hn last (by simp)
  rcases List.eq_nil_or_concat last.toList with hnil | ⟨front, c, hlast⟩
  · exact absurd (String.toList_eq_nil_iff.1 hnil) hempty
  · rw [List.concat_eq_append] at hlast
    refine ⟨Location.chars init ++ '/' :: front, c, ?_, ?_⟩
    · rw [Location.chars_concat, hlast]
      simp
    · rintro rfl
      exact hslash (by simp [hlast])

/-- A path that leads below the root does not end with a slash. -/
theorem Canonical.getLast?_ne_slash (h : path.Canonical) (hne : path.walk ≠ []) :
    path.toList.getLast? ≠ some '/' := by
  obtain ⟨hn, -⟩ := h.mem_spellings
  obtain ⟨lead, -, hp⟩ := h.exists_lead
  obtain ⟨front, c, hchars, hc⟩ := exists_last_of_ne_nil hn hne
  rw [hp, Location.toList_spelled hne, hchars, ← List.append_assoc, List.getLast?_concat]
  exact fun he => hc (Option.some.inj he)

/-! ## The last name and what stands before it -/

/-- A search backwards for a slash goes through a text that has none. -/
theorem ne_slash_of_mem_reverse {text : String} (h : '/' ∉ text.toList) :
    ∀ c ∈ text.toList.reverse, decide (c ≠ '/') = true := fun _ hc =>
  decide_eq_true fun he => h (he ▸ List.mem_reverse.1 hc)

/-- The slash in front of the last name is the last one. -/
theorem splitAt_last {front : List Char} {last : String} (hlast : '/' ∉ last.toList) :
    (front ++ '/' :: last.toList).reverse.takeWhile (· ≠ '/') = last.toList.reverse ∧
      (front ++ '/' :: last.toList).reverse.dropWhile (· ≠ '/') = '/' :: front.reverse := by
  have hall := ne_slash_of_mem_reverse hlast
  rw [List.reverse_append, List.reverse_cons, List.append_assoc, List.singleton_append]
  constructor
  · rw [List.takeWhile_append_of_pos hall]
    simp
  · rw [List.dropWhile_append_of_pos hall]
    simp

/-- A canonical path is not empty. -/
theorem Canonical.ne_empty (h : path.Canonical) : path ≠ "" := by
  rintro rfl
  cases h.isAbsolute

/-- The last component of a canonical path is no dot. -/
theorem Canonical.name_ne_dot (h : path.Canonical) : path.name ≠ "." := by
  obtain ⟨hn, -⟩ := h.mem_spellings
  obtain ⟨lead, hl, hp⟩ := h.exists_lead
  rcases List.eq_nil_or_concat path.walk with hroot | ⟨init, last, hwalk⟩
  · rw [hp, hroot]
    rcases hl with rfl | rfl <;> decide
  · rw [List.concat_eq_append] at hwalk
    obtain ⟨-, hdot, -, hslash⟩ := hn last (by simp [hwalk])
    rw [name, hp, hwalk, toList_spelled_concat, (splitAt_last hslash).1, List.reverse_reverse,
      String.ofList_toList]
    exact hdot

/-- Before the last name of the path of a location stands the path of the location above, and the
root stays. -/
theorem parent_spelled (hl : IsLead lead) (hn : ∀ name ∈ names, IsName name) :
    (names.spelled lead).parent = Location.spelled names.dropLast lead := by
  rcases List.eq_nil_or_concat names with rfl | ⟨init, last, rfl⟩
  · rcases hl with rfl | rfl <;> decide
  rw [List.concat_eq_append] at hn ⊢
  obtain ⟨-, -, -, hslash⟩ := hn last (by simp)
  rw [List.dropLast_concat]
  apply String.toList_injective
  unfold parent
  rw [toList_spelled_concat, (splitAt_last hslash).2]
  by_cases hinit : init = []
  · -- Only slashes stand before the name, and they are kept.
    subst hinit
    rcases hl with rfl | rfl <;> decide
  · obtain ⟨front, c, hchars, hc⟩ :=
      exists_last_of_ne_nil (fun name hm => hn name (List.mem_append_left _ hm)) hinit
    have hkept : ('/' :: (lead.toList ++ Location.chars init).reverse).dropWhile (· = '/') =
        (lead.toList ++ Location.chars init).reverse := by
      rw [hchars]
      simp [hc]
    dsimp only
    rw [hkept, if_neg (by simp [hchars]), List.reverse_reverse, String.toList_ofList,
      Location.toList_spelled hinit]

/-- What stands before the last name of a canonical path is canonical and walks to the location
above. -/
theorem Canonical.parent (h : path.Canonical) :
    path.parent.Canonical ∧ path.parent.walk = path.walk.dropLast := by
  obtain ⟨hn, -⟩ := h.mem_spellings
  obtain ⟨lead, hl, hp⟩ := h.exists_lead
  have hparent : path.parent = Location.spelled path.walk.dropLast lead := by
    conv => lhs; rw [hp]
    exact parent_spelled hl hn
  rw [hparent]
  exact canonical_spelled hl fun name hm => hn name (List.dropLast_subset _ hm)

/-! ## The trail -/

/-- No component ends within a name. -/
theorem go_name {name : List Char} (hname : '/' ∉ name) (seen rest : List Char) :
    trail.go seen (name ++ rest) = trail.go (name.reverse ++ seen) rest := by
  induction name generalizing seen with
  | nil => rfl
  | cons c more ih =>
    rw [List.mem_cons, not_or] at hname
    rw [List.cons_append, trail.go, if_neg fun he => hname.1 he.symm, List.nil_append, ih hname.2]
    simp

/-- A component ends with each location below the root. -/
theorem stop_of_ne_nil (hn : ∀ name ∈ names, IsName name) (hne : names ≠ []) :
    trail.stop (lead.toList ++ names.chars).reverse = [names.spelled lead] := by
  obtain ⟨front, c, hchars, hc⟩ := exists_last_of_ne_nil hn hne
  have htext : names.spelled lead = String.ofList (lead.toList ++ names.chars) := by
    apply String.toList_injective
    rw [Location.toList_spelled hne, String.toList_ofList]
  rw [htext, hchars, ← List.append_assoc, List.reverse_append, List.reverse_singleton,
    List.singleton_append, trail.stop, if_neg hc]
  simp

/-- Behind a location the names of the rest are met one by one. -/
theorem go_chars {base : Location} {rest : List String}
    (hn : ∀ name ∈ base ++ rest, IsName name) :
    trail.go (lead.toList ++ base.chars).reverse (Location.chars rest) =
      trail.stop (lead.toList ++ base.chars).reverse ++
        (base.downFrom rest).map (·.spelled lead) := by
  induction rest generalizing base with
  | nil => exact (List.append_nil _).symm
  | cons name more ih =>
    rw [List.append_cons] at hn
    have hbase : ∀ other ∈ base ++ [name], IsName other := fun other ho =>
      hn other (List.mem_append_left _ ho)
    obtain ⟨-, -, -, hslash⟩ := hbase name (by simp)
    have hseen : name.toList.reverse ++ '/' :: (lead.toList ++ base.chars).reverse =
        (lead.toList ++ Location.chars (base ++ [name])).reverse := by
      rw [Location.chars_concat]
      simp
    rw [Location.chars_cons, trail.go, if_pos rfl, go_name hslash, hseen, ih hn,
      stop_of_ne_nil hbase (by simp)]
    rfl

/-- A walk along the path of a location meets the locations on the way down from the root. -/
theorem trail_spelled (hl : IsLead lead) (hn : ∀ name ∈ names, IsName name) :
    (names.spelled lead).trail =
      (Location.downFrom [] names).map (·.spelled lead) := by
  by_cases hne : names = []
  · subst hne
    rcases hl with rfl | rfl <;> rfl
  have hgo := @go_chars lead [] names hn
  rw [trail, Location.toList_spelled hne]
  rcases hl with rfl | rfl <;> exact hgo

/-- A walk along a canonical path meets canonical paths that lead to it. -/
theorem Canonical.of_mem_trail {step : Path} (h : path.Canonical) (hs : step ∈ path.trail) :
    step.Canonical ∧ step.walk <+: path.walk := by
  obtain ⟨hn, -⟩ := h.mem_spellings
  obtain ⟨lead, hl, hp⟩ := h.exists_lead
  rw [hp, trail_spelled hl hn] at hs
  obtain ⟨location, hm, rfl⟩ := List.mem_map.1 hs
  have hon := Location.prefix_of_mem_downFrom hm
  obtain ⟨hc, hwalk⟩ := canonical_spelled hl fun name hname => hn name (hon.subset hname)
  exact ⟨hc, hwalk.symm ▸ hon⟩

/-- A walk along a canonical path below the root meets what a walk to the directory above it meets,
and then the path. -/
theorem Canonical.trail_eq (h : path.Canonical) (hne : path.walk ≠ []) :
    path.trail = path.parent.trail ++ [path] := by
  obtain ⟨hn, -⟩ := h.mem_spellings
  obtain ⟨lead, hl, hp⟩ := h.exists_lead
  rcases List.eq_nil_or_concat path.walk with hnil | ⟨init, last, hwalk⟩
  · exact absurd hnil hne
  rw [List.concat_eq_append] at hwalk
  rw [hwalk] at hn hp
  have hinit : ∀ name ∈ init, IsName name := fun name hm => hn name (List.mem_append_left _ hm)
  rw [hp, parent_spelled hl hn, List.dropLast_concat, trail_spelled hl hn, trail_spelled hl hinit,
    Location.downFrom_append, List.map_append]
  rfl

/-- What is met above something else is met on the way to the directory above the path. -/
theorem Canonical.mem_trail_parent {step other : Path} (h : path.Canonical) (hroot : path.walk ≠ [])
    (hs : step ∈ path.trail) (ho : other ∈ path.trail) (hon : step.walk <+: other.walk)
    (hne : step ≠ other) : step ∈ path.parent.trail := by
  rw [h.trail_eq hroot, List.mem_append, List.mem_singleton] at hs ho
  refine hs.resolve_right ?_
  rintro rfl
  have habove : other ∈ step.parent.trail := ho.resolve_right hne.symm
  have hup := hon.trans (h.parent.1.of_mem_trail habove).2
  rw [h.parent.2] at hup
  exact Location.not_prefix_dropLast hroot hup

/-- A walk along a canonical path begins with the walk to what it meets. -/
theorem Canonical.exists_trail_append {step : Path} (h : path.Canonical) (hs : step ∈ path.trail) :
    ∃ more, path.trail = step.trail ++ more := by
  obtain ⟨hn, -⟩ := h.mem_spellings
  obtain ⟨lead, hl, hp⟩ := h.exists_lead
  rw [hp, trail_spelled hl hn] at hs ⊢
  obtain ⟨location, hm, rfl⟩ := List.mem_map.1 hs
  obtain ⟨rest, hrest⟩ := Location.prefix_of_mem_downFrom hm
  rw [List.nil_append] at hrest
  rw [← hrest, Location.downFrom_append, List.map_append,
    trail_spelled hl fun name hname => hn name (hrest ▸ List.mem_append_left _ hname)]
  exact ⟨_, rfl⟩

end

/-! ## Paths that operations take -/

/-- What a walk meets has a name at its end and is a beginning of the text. -/
theorem prefix_of_mem_go {step : Path} {seen rest : List Char} (h : step ∈ trail.go seen rest) :
    step ≠ "" ∧ step.toList <+: seen.reverse ++ rest := by
  have hstop : ∀ {seen : List Char}, step ∈ trail.stop seen →
      step ≠ "" ∧ step.toList = seen.reverse := by
    intro seen hs
    unfold trail.stop at hs
    split at hs
    · cases hs
    · split at hs
      · cases hs
      · cases List.mem_singleton.1 hs
        exact ⟨fun he => by simpa using congrArg String.toList he, String.toList_ofList⟩
  induction rest generalizing seen with
  | nil =>
    obtain ⟨hne, htext⟩ := hstop h
    exact ⟨hne, by simp [htext]⟩
  | cons c rest ih =>
    rw [trail.go] at h
    rcases List.mem_append.1 h with h | h
    · split at h
      · obtain ⟨hne, htext⟩ := hstop h
        exact ⟨hne, htext ▸ List.prefix_append _ _⟩
      · cases h
    · simpa using ih h

/-- Operations take a path that is not empty, has no null character and is not too long. -/
theorem fault?_eq_none {path : Path} :
    path.fault? = none ↔
      path ≠ "" ∧ '\x00' ∉ path.toList ∧ path.utf8ByteSize ≤ Path.byteLimit := by
  unfold fault?
  split
  · simp_all
  · split
    · simp_all
    · split <;> simp_all

/-- Operations that take a path take its beginnings. -/
theorem fault?_of_prefix {path outer : Path} (h : path.fault? = none) (hne : outer ≠ "")
    (hon : outer.toList <+: path.toList) : outer.fault? = none := by
  obtain ⟨-, hnull, hsize⟩ := fault?_eq_none.1 h
  obtain ⟨rest, htext⟩ := hon
  have hpath : path = outer ++ String.ofList rest := by
    apply String.toList_injective
    rw [String.toList_append, String.toList_ofList, htext]
  rw [hpath] at hnull hsize
  rw [String.toList_append, List.mem_append, not_or] at hnull
  rw [String.utf8ByteSize_append] at hsize
  exact fault?_eq_none.2 ⟨hne, hnull.1, Nat.le_trans (Nat.le_add_right _ _) hsize⟩

/-- Operations that take a path take all that a walk along it meets. -/
theorem fault?_of_mem_trail {path step : Path} (h : path.fault? = none) (hs : step ∈ path.trail) :
    step.fault? = none := by
  obtain ⟨hne, hon⟩ := prefix_of_mem_go hs
  exact fault?_of_prefix h hne hon

/-- Operations that take a canonical path take what stands before its last name. -/
theorem Canonical.fault?_parent {path : Path} (hc : path.Canonical) (h : path.fault? = none) :
    path.parent.fault? = none := by
  refine fault?_of_prefix h hc.parent.1.ne_empty ?_
  have hbefore := List.dropWhile_suffix (l := path.toList.reverse) (· ≠ '/')
  have hkept := (List.dropWhile_suffix (· = '/')).trans hbefore
  rw [Path.parent, String.toList_ofList, ← List.reverse_suffix, List.reverse_reverse]
  split
  · exact hbefore
  · exact hkept

end Path

end Bundler
