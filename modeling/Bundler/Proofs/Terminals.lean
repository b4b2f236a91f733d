import Bundler.Proofs.Comments

/-!
# The terminals of module source

A piece of a source text has one of the forms that `Terminal` lists, for each kind of tokens and for
what is skipped, without saying how a text is read. The first piece that the scan finds in a text
has one of them (`Leading.terminal`), and whatever form but punctuation a text begins with, the
first piece is of that kind (`Terminal.exists_leading`). So punctuation is what is left: a character
is a token of its own only where nothing else begins (`Leading.mark_alone`).
-/

namespace Bundler.Source

open Text

/-- What stands between two marks: plain characters, none of them a backslash, and backslashes that
take the next character with them, if it can be taken. -/
inductive Escaped (plain taken : Char → Prop) : List Char → Prop
  | nil : Escaped plain taken []
  | plain {c : Char} {rest : List Char} : c ≠ '\\' → plain c → Escaped plain taken rest →
      Escaped plain taken (c :: rest)
  | escape {c : Char} {rest : List Char} : taken c → Escaped plain taken rest →
      Escaped plain taken ('\\' :: c :: rest)

/-- What stands in a string between two marks: the mark is escaped, and no line ends. -/
def IsQuotable (mark : Char) : List Char → Prop :=
  Escaped (fun c => c ≠ mark ∧ c ≠ '\n') (· ≠ '\n')

/-- What stands in a template: only its mark has to be escaped. -/
def IsTemplatable : List Char → Prop :=
  Escaped (· ≠ templateMark) fun _ => True

/-- The pieces that source is made of, by the kind of token that they are. Those of no kind are
skipped: white space and comments. -/
inductive Terminal : Option Kind → List Char → Prop
  | blank {c : Char} : isBlank c = true → Terminal none [c]
  | lineComment {body : List Char} : '\n' ∉ body → Terminal none ('/' :: '/' :: body)
  | blockComment {body : List Char} : ¬ ['*', '/'] <:+: body →
      Terminal none ('/' :: '*' :: (body ++ ['*', '/']))
  | number {c : Char} {chars : List Char} : isDigit c = true →
      (∀ d ∈ chars, isNumberPart d = true) → Terminal (some .number) (c :: chars)
  | name {c : Char} {chars : List Char} : isDigit c = false → isNamePart c = true →
      (∀ d ∈ chars, isNamePart d = true) → Terminal (some .name) (c :: chars)
  | string {mark : Char} {body : List Char} : IsQuote mark → IsQuotable mark body →
      Terminal (some .string) (mark :: (body ++ [mark]))
  | template {body : List Char} : IsTemplatable body →
      Terminal (some .template) (templateMark :: (body ++ [templateMark]))
  | punctuation {c : Char} : isBlank c = false → isNamePart c = false →
      Terminal (some .punctuation) [c]

section
variable {c mark : Char} {chars body later more piece : List Char} {kind? : Option Kind}

/-! ## What is closed -/

/-- A string is closed if only its last character is a mark that is not escaped. -/
theorem closed_string_iff (hm : mark ≠ '\\') : Closed (stringLength mark) chars ↔
    ∃ body, chars = body ++ [mark] ∧ IsQuotable mark body := by
  constructor
  · intro hc
    have hlength : stringLength mark chars = some chars.length := by
      simpa using hc []
    clear hc
    induction chars using escape_induction with
    | nil => simp at hlength
    | lone => simp [stringLength_lone hm] at hlength
    | escape c rest ih =>
      rw [stringLength_escape] at hlength
      split at hlength
      · cases hlength
      · next hc =>
        obtain ⟨n, hrest, hn⟩ := Option.map_eq_some_iff.1 hlength
        simp only [List.length_cons, Nat.add_right_cancel_iff] at hn
        obtain ⟨body, rfl, hbody⟩ := ih (hn ▸ hrest)
        exact ⟨'\\' :: c :: body, rfl, .escape hc hbody⟩
    | plain c rest hc ih =>
      rw [stringLength_plain hc] at hlength
      split at hlength
      · next hmark =>
        have hrest : rest = [] := by simpa [eq_comm] using hlength
        exact ⟨[], by rw [hmark, hrest]; rfl, .nil⟩
      · next hmark =>
        split at hlength
        · cases hlength
        · next hline =>
          obtain ⟨n, hrest, hn⟩ := Option.map_eq_some_iff.1 hlength
          simp only [List.length_cons, Nat.add_right_cancel_iff] at hn
          obtain ⟨body, rfl, hbody⟩ := ih (hn ▸ hrest)
          exact ⟨c :: body, rfl, .plain hc ⟨hmark, hline⟩ hbody⟩
  · rintro ⟨body, rfl, hbody⟩ later
    unfold IsQuotable at hbody
    induction hbody with
    | nil => simp [stringLength_plain hm]
    | plain hc hp _ ih =>
      simp only [List.cons_append] at ih ⊢
      rw [stringLength_plain hc, if_neg hp.1, if_neg hp.2, ih]
      rfl
    | escape ht _ ih =>
      simp only [List.cons_append] at ih ⊢
      rw [stringLength_escape, if_neg ht, ih]
      rfl

/-- A template is closed if only its last character is a mark that is not escaped. -/
theorem closed_template_iff : Closed templateLength chars ↔
    ∃ body, chars = body ++ [templateMark] ∧ IsTemplatable body := by
  constructor
  · intro hc
    have hlength : templateLength chars = some chars.length := by
      simpa using hc []
    clear hc
    induction chars using escape_induction with
    | nil => simp at hlength
    | lone => simp at hlength
    | escape c rest ih =>
      rw [templateLength_escape] at hlength
      obtain ⟨n, hrest, hn⟩ := Option.map_eq_some_iff.1 hlength
      simp only [List.length_cons, Nat.add_right_cancel_iff] at hn
      obtain ⟨body, rfl, hbody⟩ := ih (hn ▸ hrest)
      exact ⟨'\\' :: c :: body, rfl, .escape trivial hbody⟩
    | plain c rest hc ih =>
      rw [templateLength_plain hc] at hlength
      split at hlength
      · next hmark =>
        have hrest : rest = [] := by simpa [eq_comm] using hlength
        exact ⟨[], by rw [hmark, hrest]; rfl, .nil⟩
      · next hmark =>
        obtain ⟨n, hrest, hn⟩ := Option.map_eq_some_iff.1 hlength
        simp only [List.length_cons, Nat.add_right_cancel_iff] at hn
        obtain ⟨body, rfl, hbody⟩ := ih (hn ▸ hrest)
        exact ⟨c :: body, rfl, .plain hc hmark hbody⟩
  · rintro ⟨body, rfl, hbody⟩ later
    have hm : templateMark ≠ '\\' := by decide
    unfold IsTemplatable at hbody
    induction hbody with
    | nil => simp [templateLength_plain hm]
    | plain hc hp _ ih =>
      simp only [List.cons_append] at ih ⊢
      rw [templateLength_plain hc, if_neg hp, ih]
      rfl
    | escape _ _ ih =>
      simp only [List.cons_append] at ih ⊢
      rw [templateLength_escape, ih]
      rfl

/-- A block comment is closed if it ends with the first star that a slash follows. -/
theorem closed_blockComment_iff : Closed blockCommentLength chars ↔
    ∃ body, chars = body ++ ['*', '/'] ∧ ¬ ['*', '/'] <:+: body := by
  constructor
  · intro hc
    have hlength : blockCommentLength chars = some chars.length := by
      simpa using hc []
    clear hc
    induction chars with
    | nil => simp at hlength
    | cons c rest ih =>
      by_cases hmark : c = '*' ∧ rest.head? = some '/'
      · obtain ⟨rfl, hhead⟩ := hmark
        obtain ⟨behind, rfl⟩ := List.head?_eq_some_iff.1 hhead
        have hbehind : behind = [] := by simpa [eq_comm] using hlength
        exact ⟨[], by rw [hbehind]; rfl, by simp⟩
      · rw [blockCommentLength_plain hmark] at hlength
        obtain ⟨n, hrest, hn⟩ := Option.map_eq_some_iff.1 hlength
        simp only [List.length_cons, Nat.add_right_cancel_iff] at hn
        obtain ⟨body, rfl, hbody⟩ := ih (hn ▸ hrest)
        refine ⟨c :: body, rfl, fun hinfix => ?_⟩
        rcases List.infix_cons_iff.1 hinfix with ⟨behind, hprefix⟩ | hinfix
        · -- The comment would begin with its end.
          obtain ⟨rfl, hbehind⟩ := List.cons.inj hprefix
          exact hmark ⟨rfl, by rw [← hbehind]; rfl⟩
        · exact hbody hinfix
  · rintro ⟨body, rfl, hbody⟩
    exact closed_blockComment hbody

/-! ## The first piece -/

/-- The first piece of a text is a terminal. -/
theorem Leading.terminal (h : Leading c chars later kind?) : Terminal kind? (c :: chars) := by
  cases h with
  | blank hb => exact .blank hb
  | number hd hc => exact .number hd hc
  | name hd hn hc => exact .name hd hn hc
  | string hq hc =>
    obtain ⟨body, rfl, hbody⟩ := (closed_string_iff hq.classes.2.2.2.1).1 hc
    exact .string hq hbody
  | openString hq => exact .punctuation hq.classes.1 hq.classes.2.2.1
  | template hc =>
    obtain ⟨body, rfl, hbody⟩ := closed_template_iff.1 hc
    exact .template hbody
  | openTemplate => exact .punctuation classes_templateMark.1 classes_templateMark.2.2.1
  | lineComment hc => exact .lineComment fun hline => hc _ hline rfl
  | blockComment hc =>
    obtain ⟨body, rfl, hbody⟩ := closed_blockComment_iff.1 hc
    exact .blockComment hbody
  | openComment | slash => exact .punctuation classes_slash.1 classes_slash.2.2.1
  | mark hm => exact .punctuation hm.notBlank hm.notNamePart

/-- A run goes on until it stops, whatever begins it. -/
theorem exists_longest_run {goesOn : Char → Bool} (hc : ∀ d ∈ chars, goesOn d = true)
    (more : List Char) : ∃ run later, chars ++ more = run ++ later ∧
      (∀ d ∈ run, goesOn d = true) ∧ StopsAt goesOn later := by
  obtain ⟨run, later, rfl, hrun, hl⟩ := exists_run goesOn more
  refine ⟨chars ++ run, later, (List.append_assoc ..).symm, fun d hd => ?_, hl⟩
  exact (List.mem_append.1 hd).elim (hc d) (hrun d)

/-- If a text begins with a terminal that is not punctuation, the first piece is of its kind. -/
theorem Terminal.exists_leading (h : Terminal kind? piece) (hk : kind? ≠ some .punctuation)
    (more : List Char) : ∃ c chars later,
      piece ++ more = c :: (chars ++ later) ∧ Leading c chars later kind? := by
  cases h with
  | @blank c hb => exact ⟨c, [], more, rfl, .blank hb⟩
  | @lineComment body hb =>
    have hrun : ∀ d ∈ body, decide (d ≠ '\n') = true := fun d hd =>
      decide_eq_true fun he => hb (he ▸ hd)
    obtain ⟨run, later, hs, hr, hl⟩ := exists_longest_run hrun more
    exact ⟨'/', '/' :: run, later, by simp [hs], .lineComment (by simpa using hr) hl⟩
  | @blockComment body hb =>
    exact ⟨'/', '*' :: (body ++ ['*', '/']), more, rfl, .blockComment (closed_blockComment hb)⟩
  | @number c chars hd hc =>
    obtain ⟨run, later, hs, hr, hl⟩ := exists_longest_run hc more
    exact ⟨c, run, later, by rw [List.cons_append, hs], .number hd hr hl⟩
  | @name c chars hd hn hc =>
    obtain ⟨run, later, hs, hr, hl⟩ := exists_longest_run hc more
    exact ⟨c, run, later, by rw [List.cons_append, hs], .name hd hn hr hl⟩
  | @string mark body hq hb =>
    exact ⟨mark, body ++ [mark], more, rfl,
      .string hq ((closed_string_iff hq.classes.2.2.2.1).2 ⟨body, rfl, hb⟩)⟩
  | @template body hb =>
    exact ⟨templateMark, body ++ [templateMark], more, rfl,
      .template (closed_template_iff.2 ⟨body, rfl, hb⟩)⟩
  | punctuation => exact absurd rfl hk

/-- A character is a token of its own only where no other piece begins. -/
theorem Leading.mark_alone (h : Leading c chars later (some .punctuation))
    (ht : Terminal kind? piece) (hk : kind? ≠ some .punctuation) :
    ¬ piece <+: c :: (chars ++ later) := by
  rintro ⟨more, happend⟩
  obtain ⟨d, others, behind, hsplit, hl⟩ := ht.exists_leading hk more
  obtain ⟨rfl, hrest⟩ := List.cons.inj (happend.symm.trans hsplit)
  have hfront := h.front_eq h.isBlank_eq_false
  rw [hrest, hl.front_eq h.isBlank_eq_false] at hfront
  exact hk (congrArg Piece.kind? hfront)

end

end Bundler.Source
