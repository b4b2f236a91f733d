import Bundler.Source.Token

/-!
# Marks that are looked for ahead

A string, a template and a block comment reach up to a mark that stands somewhere ahead, so a change
behind a piece could decide what the piece is. This module says which changes do not.

* `EndsAt`: what is read ends with the mark, and it is read the same way whatever follows. Strings,
  templates and block comments are read that way, so where the mark is missing, it stays missing
  when a text without the mark is appended (`EndsAt.append_eq_none`).
* `stringLength_append_lineFeed`: no string goes on behind a line feed.
* `templateLength_append_eq_none_iff`, `blockCommentLength_append_eq_none_iff`: whether the mark is
  missing can be said of two parts of a text one by one, where neither an escape nor a mark is cut
  in two.
-/

namespace Bundler.Source

/-- The characters are read up to their end and no further, whatever follows them. -/
def Closed (reach : List Char → Option Nat) (chars : List Char) : Prop :=
  ∀ later, reach (chars ++ later) = some chars.length

/-- What is read is a beginning of the text that is closed, and the mark is its last character. -/
def EndsAt (reach : List Char → Option Nat) (mark : Char) : Prop :=
  ∀ text n, reach text = some n → ∃ chars later, text = chars ++ later ∧ chars.length = n ∧
    Closed reach chars ∧ chars.getLast? = some mark

/-- What has no end does not get one by a text without the mark. -/
theorem EndsAt.append_eq_none {reach : List Char → Option Nat} {mark : Char}
    (he : EndsAt reach mark) {text later : List Char} (hl : mark ∉ later)
    (h : reach text = none) : reach (text ++ later) = none := by
  rw [Option.eq_none_iff_forall_ne_some]
  intro n hn
  obtain ⟨chars, rest, hsplit, -, hclosed, hlast⟩ := he _ _ hn
  rcases List.append_eq_append_iff.1 hsplit with ⟨beyond, rfl, hbeyond⟩ | ⟨beyond, rfl, -⟩
  · -- The end lies behind the text, or it is the end of the text.
    rcases List.eq_nil_or_concat beyond with rfl | ⟨init, last, rfl⟩
    · have hnone := hclosed []
      rw [List.append_nil, List.append_nil, h] at hnone
      cases hnone
    · have hmark : last = mark := by simpa using hlast
      subst hmark
      exact hl (by simp [hbeyond])
  · rw [hclosed beyond] at h
    cases h

/-- What is closed ends with the mark. -/
theorem EndsAt.getLast?_of_closed {reach : List Char → Option Nat} {mark : Char} {chars : List Char}
    (he : EndsAt reach mark) (hc : Closed reach chars) : chars.getLast? = some mark := by
  obtain ⟨read, rest, hsplit, hlength, -, hlast⟩ := he _ _ (hc [])
  have hread : read = chars := by
    rw [List.append_nil] at hsplit
    have hrest : rest = [] := by
      have := congrArg List.length hsplit
      rw [List.length_append] at this
      exact List.length_eq_zero_iff.1 (by omega)
    rw [hsplit, hrest, List.append_nil]
  exact hread ▸ hlast

/-- Induction along a text in which a backslash takes the next character with it. -/
@[elab_as_elim]
theorem escape_induction {motive : List Char → Prop} (nil : motive []) (lone : motive ['\\'])
    (escape : ∀ c rest, motive rest → motive ('\\' :: c :: rest))
    (plain : ∀ c rest, c ≠ '\\' → motive rest → motive (c :: rest)) (text : List Char) :
    motive text := by
  induction hn : text.length using Nat.strongRecOn generalizing text with
  | ind n ih =>
    match text with
    | [] => exact nil
    | [c] =>
      by_cases hc : c = '\\'
      · exact hc ▸ lone
      · exact plain c [] hc nil
    | c :: d :: rest =>
      simp only [List.length_cons] at hn
      by_cases hc : c = '\\'
      · exact hc ▸ escape d rest (ih rest.length (by omega) rest rfl)
      · exact plain c (d :: rest) hc (ih (rest.length + 1) (by omega) (d :: rest) rfl)

/-! ## Strings -/

section
variable {mark : Char} {text later : List Char}

@[simp] theorem stringLength_nil : stringLength mark [] = none := by
  rw [stringLength]

@[simp] theorem stringLength_escape {c : Char} : stringLength mark ('\\' :: c :: text) =
    if c = '\n' then none else (stringLength mark text).map (· + 2) := by
  rw [stringLength]

/-- A character that is no backslash ends the string, breaks it off or belongs to it. -/
theorem stringLength_plain {c : Char} (h : c ≠ '\\') : stringLength mark (c :: text) =
    if c = mark then some 1 else if c = '\n' then none
    else (stringLength mark text).map (· + 1) := by
  rw [stringLength]
  · simp [h]
  · intro d rest hc
    exact absurd hc h

/-- A backslash at the end of the text closes nothing. -/
theorem stringLength_lone (hm : mark ≠ '\\') : stringLength mark ['\\'] = none := by
  rw [stringLength]
  · simp [hm.symm]
  · intro d rest _ h
    cases h

/-- A string ends with its mark. -/
theorem stringLength_endsAt (hm : mark ≠ '\\') : EndsAt (stringLength mark) mark := by
  intro text n h
  induction text using escape_induction generalizing n with
  | nil => simp at h
  | lone => simp [stringLength_lone hm] at h
  | escape c rest ih =>
    rw [stringLength_escape] at h
    split at h
    · cases h
    · next hc =>
      obtain ⟨m, hr, rfl⟩ := Option.map_eq_some_iff.1 h
      obtain ⟨chars, later, rfl, rfl, hclosed, hlast⟩ := ih m hr
      refine ⟨'\\' :: c :: chars, later, rfl, rfl, fun other => ?_, ?_⟩
      · simp [hc, hclosed other]
      · rw [List.getLast?_cons_cons, List.getLast?_cons, hlast]
        rfl
  | plain c rest hc ih =>
    rw [stringLength_plain hc] at h
    split at h
    · next hmark =>
      cases h
      refine ⟨[c], rest, rfl, rfl, fun other => ?_, by rw [hmark]; rfl⟩
      rw [List.singleton_append, stringLength_plain hc, if_pos hmark]
      rfl
    · next hmark =>
      split at h
      · cases h
      · next hline =>
        obtain ⟨m, hr, rfl⟩ := Option.map_eq_some_iff.1 h
        obtain ⟨chars, later, rfl, rfl, hclosed, hlast⟩ := ih m hr
        refine ⟨c :: chars, later, rfl, rfl, fun other => ?_, ?_⟩
        · rw [List.cons_append, stringLength_plain hc, if_neg hmark, if_neg hline, hclosed other]
          rfl
        · rw [List.getLast?_cons, hlast]
          rfl

/-- No string goes on behind a line feed. -/
theorem stringLength_append_lineFeed (hm : mark ≠ '\\') (hl : mark ≠ '\n') :
    stringLength mark (text ++ '\n' :: later) = stringLength mark text := by
  induction text using escape_induction with
  | nil => simp [stringLength_plain, hl.symm]
  | lone => simp [stringLength_lone hm]
  | escape c rest ih => simp [ih]
  | plain c rest hc ih => simp [stringLength_plain hc, ih]

end

/-! ## Templates -/

section
variable {text later : List Char}

@[simp] theorem templateLength_nil : templateLength [] = none := by
  rw [templateLength]

@[simp] theorem templateLength_escape {c : Char} :
    templateLength ('\\' :: c :: text) = (templateLength text).map (· + 2) := by
  rw [templateLength]

/-- A character that is no backslash ends the template or belongs to it. -/
theorem templateLength_plain {c : Char} (h : c ≠ '\\') : templateLength (c :: text) =
    if c = templateMark then some 1 else (templateLength text).map (· + 1) := by
  rw [templateLength]
  · simp [h]
  · intro d rest hc
    exact absurd hc h

/-- A backslash at the end of the text closes nothing. -/
@[simp] theorem templateLength_lone : templateLength ['\\'] = none := by
  rw [templateLength]
  · rfl
  · intro d rest _ h
    cases h

/-- A template ends with its mark. -/
theorem templateLength_endsAt : EndsAt templateLength templateMark := by
  intro text n h
  induction text using escape_induction generalizing n with
  | nil => simp at h
  | lone => simp at h
  | escape c rest ih =>
    rw [templateLength_escape] at h
    obtain ⟨m, hr, rfl⟩ := Option.map_eq_some_iff.1 h
    obtain ⟨chars, later, rfl, rfl, hclosed, hlast⟩ := ih m hr
    refine ⟨'\\' :: c :: chars, later, rfl, rfl, fun other => ?_, ?_⟩
    · simp [hclosed other]
    · rw [List.getLast?_cons_cons, List.getLast?_cons, hlast]
      rfl
  | plain c rest hc ih =>
    rw [templateLength_plain hc] at h
    split at h
    · next hmark =>
      cases h
      refine ⟨[c], rest, rfl, rfl, fun other => ?_, by rw [hmark]; rfl⟩
      rw [List.singleton_append, templateLength_plain hc, if_pos hmark]
      rfl
    · next hmark =>
      obtain ⟨m, hr, rfl⟩ := Option.map_eq_some_iff.1 h
      obtain ⟨chars, later, rfl, rfl, hclosed, hlast⟩ := ih m hr
      refine ⟨c :: chars, later, rfl, rfl, fun other => ?_, ?_⟩
      · rw [List.cons_append, templateLength_plain hc, if_neg hmark, hclosed other]
        rfl
      · rw [List.getLast?_cons, hlast]
        rfl

/-- A template is missing its end in a text exactly if both parts do not have one, where the first
part does not end with a backslash, which would take a character of the second. -/
theorem templateLength_append_eq_none_iff (hlast : text.getLast? ≠ some '\\') :
    templateLength (text ++ later) = none ↔
      templateLength text = none ∧ templateLength later = none := by
  induction text using escape_induction with
  | nil => simp
  | lone => simp at hlast
  | escape c rest ih =>
    have hrest : rest.getLast? ≠ some '\\' := by
      intro h
      rw [List.getLast?_cons_cons, List.getLast?_cons, h] at hlast
      exact hlast rfl
    simp [ih hrest]
  | plain c rest hc ih =>
    have hrest : rest.getLast? ≠ some '\\' := by
      intro h
      rw [List.getLast?_cons, h] at hlast
      exact hlast rfl
    rw [List.cons_append, templateLength_plain hc, templateLength_plain hc]
    split
    · simp
    · simp [ih hrest]

end

/-! ## Block comments -/

section
variable {text later : List Char}

@[simp] theorem blockCommentLength_nil : blockCommentLength [] = none := by
  rw [blockCommentLength]

@[simp] theorem blockCommentLength_mark : blockCommentLength ('*' :: '/' :: text) = some 2 := by
  rw [blockCommentLength]

/-- Any other beginning belongs to the comment. -/
theorem blockCommentLength_plain {c : Char} (h : ¬ (c = '*' ∧ text.head? = some '/')) :
    blockCommentLength (c :: text) = (blockCommentLength text).map (· + 1) := by
  rw [blockCommentLength]
  intro rest hc hr
  rw [hr] at h
  exact h ⟨hc, rfl⟩

/-- A comment ends with a slash. -/
theorem blockCommentLength_endsAt : EndsAt blockCommentLength '/' := by
  intro text n h
  induction text generalizing n with
  | nil => simp at h
  | cons c rest ih =>
    by_cases hmark : c = '*' ∧ rest.head? = some '/'
    · obtain ⟨rfl, hhead⟩ := hmark
      obtain ⟨more, rfl⟩ := List.head?_eq_some_iff.1 hhead
      rw [blockCommentLength_mark] at h
      cases h
      exact ⟨['*', '/'], more, rfl, rfl, fun other => blockCommentLength_mark, rfl⟩
    · rw [blockCommentLength_plain hmark] at h
      obtain ⟨m, hr, rfl⟩ := Option.map_eq_some_iff.1 h
      obtain ⟨chars, later, rfl, rfl, hclosed, hlast⟩ := ih m hr
      refine ⟨c :: chars, later, rfl, rfl, fun other => ?_, ?_⟩
      · -- The comment goes on, so it is not what follows that stands behind this character.
        have hhead : ¬ (c = '*' ∧ (chars ++ other).head? = some '/') := by
          cases chars with
          | nil => cases hlast
          | cons d more => exact hmark
        rw [List.cons_append, blockCommentLength_plain hhead, hclosed other]
        rfl
      · rw [List.getLast?_cons, hlast]
        rfl

/-- A comment is missing its end in a text exactly if both parts do not have one, where the first
part does not end with a star, which could be half of the mark. -/
theorem blockCommentLength_append_eq_none_iff (hlast : text.getLast? ≠ some '*') :
    blockCommentLength (text ++ later) = none ↔
      blockCommentLength text = none ∧ blockCommentLength later = none := by
  induction text with
  | nil => simp
  | cons c rest ih =>
    by_cases hmark : c = '*' ∧ rest.head? = some '/'
    · obtain ⟨rfl, hhead⟩ := hmark
      obtain ⟨more, rfl⟩ := List.head?_eq_some_iff.1 hhead
      simp
    · have hrest : rest.getLast? ≠ some '*' := by
        intro h
        rw [List.getLast?_cons, h] at hlast
        exact hlast rfl
      have hhead : ¬ (c = '*' ∧ (rest ++ later).head? = some '/') := by
        cases rest with
        | nil =>
          rintro ⟨rfl, -⟩
          exact hlast rfl
        | cons d more => exact hmark
      rw [List.cons_append, blockCommentLength_plain hhead, blockCommentLength_plain hmark]
      simp [ih hrest]

end

end Bundler.Source
