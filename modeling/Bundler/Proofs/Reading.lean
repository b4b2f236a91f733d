import Bundler.Proofs.Lookahead

/-!
# Reading a text piece by piece

`Leading` says what a first piece of a text is, one rule for each kind of piece, together with what
has to follow it. Each text has a first piece (`exists_leading`), and the scan reads it
(`Leading.scan_skip`, `Leading.scan_token`), so facts about the tokens of a text are proved by
induction on its pieces (`reading_induction`).

* `exists_leading_of_mem_scan`: where a token stands in the text.
* `pairwise_scan`: each token ends before the next one starts.
* `scan_after`: what comes after a token is what is read behind it.
* `lexemes`: the kinds and characters of the tokens, which do not depend on where the text begins.
-/

namespace Bundler.Source

open Text

/-- The text is empty, or its first character is none of those meant. -/
def StopsAt (goesOn : Char → Bool) (text : List Char) : Prop :=
  ∀ c ∈ text.head?, goesOn c = false

/-- A quotation mark around strings. -/
def IsQuote (c : Char) : Prop :=
  c = '\x22' ∨ c = '\x27'

/-- A character that is punctuation whatever follows it. -/
structure IsMark (c : Char) : Prop where
  notBlank : isBlank c = false
  notDigit : isDigit c = false
  notNamePart : isNamePart c = false
  notQuote : ¬ IsQuote c
  notTemplate : c ≠ templateMark
  notSlash : c ≠ '/'

/-- `c :: chars` is a first piece of the text `c :: (chars ++ later)`, and a token of the kind if
there is one. White space may be read character by character. -/
inductive Leading : Char → List Char → List Char → Option Kind → Prop
  | blank {c : Char} {later : List Char} : isBlank c = true → Leading c [] later none
  | number {c : Char} {chars later : List Char} : isDigit c = true →
      (∀ d ∈ chars, isNumberPart d = true) → StopsAt isNumberPart later →
      Leading c chars later (some .number)
  | name {c : Char} {chars later : List Char} : isDigit c = false → isNamePart c = true →
      (∀ d ∈ chars, isNamePart d = true) → StopsAt isNamePart later →
      Leading c chars later (some .name)
  | string {c : Char} {chars later : List Char} : IsQuote c → Closed (stringLength c) chars →
      Leading c chars later (some .string)
  | openString {c : Char} {later : List Char} : IsQuote c → stringLength c later = none →
      Leading c [] later (some .punctuation)
  | template {chars later : List Char} : Closed templateLength chars →
      Leading templateMark chars later (some .template)
  | openTemplate {later : List Char} : templateLength later = none →
      Leading templateMark [] later (some .punctuation)
  | lineComment {chars later : List Char} : (∀ d ∈ chars, d ≠ '\n') →
      StopsAt (· ≠ '\n') later → Leading '/' ('/' :: chars) later none
  | blockComment {chars later : List Char} : Closed blockCommentLength chars →
      Leading '/' ('*' :: chars) later none
  | openComment {later : List Char} : blockCommentLength later = none →
      Leading '/' [] ('*' :: later) (some .punctuation)
  | slash {later : List Char} : later.head? ≠ some '/' → later.head? ≠ some '*' →
      Leading '/' [] later (some .punctuation)
  | mark {c : Char} {later : List Char} : IsMark c → Leading c [] later (some .punctuation)

section
variable {c : Char} {chars later rest text : List Char} {kind? : Option Kind} {kind : Kind}
  {offset line : Nat} {token : Token}

/-! ## Each text has a first piece -/

/-- A run ends where the text behind it stops. -/
theorem takeWhile_append_of_stopsAt {goesOn : Char → Bool} (hc : ∀ d ∈ chars, goesOn d = true)
    (hl : StopsAt goesOn later) : (chars ++ later).takeWhile goesOn = chars := by
  rw [List.takeWhile_append_of_pos hc]
  cases later with
  | nil => simp
  | cons d more =>
    have hd : goesOn d = false := hl d rfl
    rw [List.takeWhile_cons_of_neg (by simp [hd]), List.append_nil]

/-- A run and what stops it make up a text. -/
theorem exists_run (goesOn : Char → Bool) (rest : List Char) : ∃ chars later,
    rest = chars ++ later ∧ (∀ d ∈ chars, goesOn d = true) ∧ StopsAt goesOn later := by
  refine ⟨rest.takeWhile goesOn, rest.dropWhile goesOn,
    List.takeWhile_append_dropWhile.symm, ?_, ?_⟩
  · exact fun d hd => List.all_eq_true.1 List.all_takeWhile d hd
  · intro d hd
    have hfirst := List.head?_dropWhile_not goesOn rest
    rw [Option.mem_def.1 hd] at hfirst
    simpa using hfirst

/-- A quotation mark is no character of any other class. -/
theorem IsQuote.classes (h : IsQuote c) : isBlank c = false ∧ isDigit c = false ∧
    isNamePart c = false ∧ c ≠ '\\' ∧ c ≠ '\n' := by
  rcases h with rfl | rfl <;> decide +kernel

/-- The mark around templates is no character of the classes before it. -/
theorem classes_templateMark : isBlank templateMark = false ∧ isDigit templateMark = false ∧
    isNamePart templateMark = false ∧ ¬ IsQuote templateMark := by
  unfold IsQuote
  decide +kernel

/-- A slash is no character of the classes before it. -/
theorem classes_slash : isBlank '/' = false ∧ isDigit '/' = false ∧ isNamePart '/' = false ∧
    ¬ IsQuote '/' ∧ '/' ≠ templateMark := by
  unfold IsQuote
  decide +kernel

/-- A character of a name is not blank. -/
theorem isBlank_of_isNamePart (h : isNamePart c = true) : isBlank c = false := by
  rw [Bool.eq_false_iff]
  intro hb
  rcases Bool.or_eq_true_iff.1 h with hw | hd
  · rw [isWord_eq_false_of_isBlank hb] at hw
    cases hw
  · rw [eq_of_beq hd] at hb
    revert hb
    decide +kernel

/-- A digit is not blank. -/
theorem isBlank_of_isDigit (h : isDigit c = true) : isBlank c = false :=
  isBlank_of_isNamePart (Bool.or_eq_true_iff.2 (.inl (isWord_of_isDigit h)))

/-- Each text that is not empty has a first piece. -/
theorem exists_leading (c : Char) (rest : List Char) : ∃ chars later kind?,
    rest = chars ++ later ∧ Leading c chars later kind? := by
  by_cases hblank : isBlank c = true
  · exact ⟨[], rest, none, rfl, .blank hblank⟩
  by_cases hdigit : isDigit c = true
  · obtain ⟨chars, later, hs, hc, hl⟩ := exists_run isNumberPart rest
    exact ⟨chars, later, _, hs, .number hdigit hc hl⟩
  by_cases hname : isNamePart c = true
  · obtain ⟨chars, later, hs, hc, hl⟩ := exists_run isNamePart rest
    exact ⟨chars, later, _, hs, .name (by simpa using hdigit) hname hc hl⟩
  by_cases hquote : IsQuote c
  · cases hr : stringLength c rest with
    | none => exact ⟨[], rest, _, rfl, .openString hquote hr⟩
    | some n =>
      obtain ⟨chars, later, hs, -, hc, -⟩ := stringLength_endsAt hquote.classes.2.2.2.1 rest n hr
      exact ⟨chars, later, _, hs, .string hquote hc⟩
  by_cases htemplate : c = templateMark
  · subst htemplate
    cases hr : templateLength rest with
    | none => exact ⟨[], rest, _, rfl, .openTemplate hr⟩
    | some n =>
      obtain ⟨chars, later, hs, -, hc, -⟩ := templateLength_endsAt rest n hr
      exact ⟨chars, later, _, hs, .template hc⟩
  by_cases hslash : c = '/'
  · subst hslash
    by_cases hline : rest.head? = some '/'
    · obtain ⟨more, rfl⟩ := List.head?_eq_some_iff.1 hline
      obtain ⟨chars, later, rfl, hc, hl⟩ := exists_run (· ≠ '\n') more
      exact ⟨'/' :: chars, later, _, rfl, .lineComment (by simpa using hc) hl⟩
    by_cases hstar : rest.head? = some '*'
    · obtain ⟨inside, rfl⟩ := List.head?_eq_some_iff.1 hstar
      cases hr : blockCommentLength inside with
      | none => exact ⟨[], _, _, rfl, .openComment hr⟩
      | some n =>
        obtain ⟨chars, later, rfl, -, hc, -⟩ := blockCommentLength_endsAt inside n hr
        exact ⟨'*' :: chars, later, _, rfl, .blockComment hc⟩
    · exact ⟨[], rest, _, rfl, .slash hline hstar⟩
  · exact ⟨[], rest, _, rfl, .mark ⟨by simpa using hblank, by simpa using hdigit,
      by simpa using hname, hquote, htemplate, hslash⟩⟩

/-- Induction on the pieces of a text. -/
@[elab_as_elim]
theorem reading_induction {motive : List Char → Prop} (nil : motive [])
    (piece : ∀ {c : Char} {chars later : List Char} {kind? : Option Kind},
      Leading c chars later kind? → motive later → motive (c :: (chars ++ later)))
    (text : List Char) : motive text := by
  induction hn : text.length using Nat.strongRecOn generalizing text with
  | ind n ih =>
    cases text with
    | nil => exact nil
    | cons c rest =>
      obtain ⟨chars, later, kind?, rfl, h⟩ := exists_leading c rest
      simp only [List.length_cons, List.length_append] at hn
      exact piece h (ih later.length (by omega) later rfl)

/-! ## The scan reads the first piece -/

/-- What the first piece is found to be, if it is not blank. -/
theorem Leading.front_eq (h : Leading c chars later kind?) (hb : isBlank c = false) :
    Piece.front c (chars ++ later) = ⟨kind?, chars.length⟩ := by
  obtain ⟨-, htd, htn, htq⟩ := classes_templateMark
  obtain ⟨-, hsd, hsn, hsq, hst⟩ := classes_slash
  unfold IsQuote at htq hsq
  cases h with
  | blank hblank =>
    rw [hblank] at hb
    cases hb
  | number hdigit hc hl => simp [Piece.front, hb, hdigit, takeWhile_append_of_stopsAt hc hl]
  | name hdigit hname hc hl =>
    simp [Piece.front, hb, hdigit, hname, takeWhile_append_of_stopsAt hc hl]
  | string hquote hc =>
    obtain ⟨-, hdigit, hname, -⟩ := hquote.classes
    unfold IsQuote at hquote
    simp [Piece.front, hb, hdigit, hname, hquote, hc later]
  | openString hquote hr =>
    obtain ⟨-, hdigit, hname, -⟩ := hquote.classes
    unfold IsQuote at hquote
    simp [Piece.front, hb, hdigit, hname, hquote, hr, Piece.mark]
  | template hc => simp [Piece.front, hb, htd, htn, htq, hc later]
  | openTemplate hr => simp [Piece.front, hb, htd, htn, htq, hr, Piece.mark]
  | @lineComment run _ hc hl =>
    have hrun : (run ++ later).takeWhile (fun d => decide (d ≠ '\n')) = run :=
      takeWhile_append_of_stopsAt (by simpa using hc) hl
    simp only [decide_not] at hrun
    simp [Piece.front, hb, hsd, hsn, hst, hrun]
  | blockComment hc => simp [Piece.front, hb, hsd, hsn, hst, hc later]
  | openComment hr => simp [Piece.front, hb, hsd, hsn, hst, hr, Piece.mark]
  | slash hline hstar =>
    cases later with
    | nil => simp [Piece.front, hb, hsd, hsn, hst, Piece.mark]
    | cons d more =>
      have hd : d ≠ '/' := fun he => hline (by rw [he]; rfl)
      have hd' : d ≠ '*' := fun he => hstar (by rw [he]; rfl)
      simp [Piece.front, hb, hsd, hsn, hst, hd, hd', Piece.mark]
  | mark hm =>
    have hquote := hm.notQuote
    unfold IsQuote at hquote
    simp [Piece.front, hb, hm.notDigit, hm.notNamePart, hquote, hm.notTemplate, hm.notSlash,
      Piece.mark]

/-- A blank character in front only moves the offset and the line. -/
theorem scan_blank (h : isBlank c = true) :
    scan offset line (c :: rest) = scan (offset + 1) (line + lineFeeds [c]) rest := by
  have hfront : ∀ rest : List Char,
      Piece.front c rest = ⟨none, (rest.takeWhile isBlank).length⟩ := by
    intro rest
    simp [Piece.front, h]
  rw [scan_skip (hfront rest)]
  cases rest with
  | nil => simp
  | cons d more =>
    by_cases hd : isBlank d = true
    · have hskip : Piece.front d more = ⟨none, (more.takeWhile isBlank).length⟩ := by
        simp [Piece.front, hd]
      have hlines : ∀ run : List Char, lineFeeds (c :: d :: run) =
          lineFeeds [c] + lineFeeds (d :: run) := by
        intro run
        rw [← List.singleton_append, lineFeeds, List.count_append]
        rfl
      rw [scan_skip hskip, List.takeWhile_cons_of_pos hd, List.length_cons, List.take_succ_cons,
        List.drop_succ_cons, hlines]
      congr 1 <;> omega
    · rw [List.takeWhile_cons_of_neg hd]
      rfl

/-- White space and comments are skipped. -/
theorem Leading.scan_skip (h : Leading c chars later none) :
    scan offset line (c :: (chars ++ later)) =
      scan (offset + chars.length + 1) (line + lineFeeds (c :: chars)) later := by
  by_cases hb : isBlank c = true
  · cases h with
    | blank => exact scan_blank hb
    | lineComment | blockComment =>
      rw [classes_slash.1] at hb
      cases hb
  · rw [Source.scan_skip (h.front_eq (by simpa using hb)), List.take_left, List.drop_left]

/-- A token does not begin with white space. -/
theorem Leading.isBlank_eq_false (h : Leading c chars later (some kind)) : isBlank c = false := by
  cases h with
  | number hdigit => exact isBlank_of_isDigit hdigit
  | name _ hname => exact isBlank_of_isNamePart hname
  | string hquote | openString hquote => exact hquote.classes.1
  | template | openTemplate => exact classes_templateMark.1
  | openComment | slash => exact classes_slash.1
  | mark hm => exact hm.notBlank

/-- Any other piece is the first token. -/
theorem Leading.scan_token (h : Leading c chars later (some kind)) :
    scan offset line (c :: (chars ++ later)) =
      ⟨kind, String.ofList (c :: chars), offset, offset + chars.length + 1, line⟩ ::
        scan (offset + chars.length + 1) (line + lineFeeds (c :: chars)) later := by
  rw [Source.scan_token (h.front_eq h.isBlank_eq_false), List.take_left, List.drop_left]

/-! ## Where the tokens stand -/

/-- A token is a piece of the text, at the offset that it says. -/
theorem exists_leading_of_mem_scan (h : token ∈ scan offset line text) :
    ∃ before c chars later, text = before ++ c :: (chars ++ later) ∧
      Leading c chars later (some token.kind) ∧ token.text = String.ofList (c :: chars) ∧
      token.start = offset + before.length ∧ token.stop = token.start + chars.length + 1 := by
  induction text using reading_induction generalizing offset line with
  | nil => simp at h
  | @piece c chars later kind? hp ih =>
    have hlater : ∀ {line' : Nat}, token ∈ scan (offset + chars.length + 1) line' later →
        ∃ before d more rest, c :: (chars ++ later) = before ++ d :: (more ++ rest) ∧
          Leading d more rest (some token.kind) ∧ token.text = String.ofList (d :: more) ∧
          token.start = offset + before.length ∧ token.stop = token.start + more.length + 1 := by
      intro line' hm
      obtain ⟨before, d, more, rest, rfl, hd, ht, hstart, hstop⟩ := ih hm
      refine ⟨c :: (chars ++ before), d, more, rest, by simp, hd, ht, ?_, hstop⟩
      simp only [List.length_cons, List.length_append]
      omega
    cases kind? with
    | none =>
      rw [hp.scan_skip] at h
      exact hlater h
    | some kind =>
      rw [hp.scan_token] at h
      rcases List.mem_cons.1 h with rfl | hm
      · exact ⟨[], c, chars, later, rfl, hp, rfl, rfl, rfl⟩
      · exact hlater hm

/-- A token lies behind the offset where the text begins, and is not empty. -/
theorem start_le_of_mem_scan (h : token ∈ scan offset line text) :
    offset ≤ token.start ∧ token.start < token.stop := by
  obtain ⟨before, c, chars, later, -, -, -, hstart, hstop⟩ := exists_leading_of_mem_scan h
  omega

/-- No token reaches beyond the end of the text. -/
theorem stop_le_of_mem_scan (h : token ∈ scan offset line text) :
    token.stop ≤ offset + text.length := by
  obtain ⟨before, c, chars, later, rfl, -, -, hstart, hstop⟩ := exists_leading_of_mem_scan h
  simp only [List.length_append, List.length_cons]
  omega

/-- Each token ends before the next one starts. -/
theorem pairwise_scan (offset line : Nat) (text : List Char) :
    (scan offset line text).Pairwise fun token next => token.stop ≤ next.start := by
  induction text using reading_induction generalizing offset line with
  | nil => simp
  | @piece c chars later kind? hp ih =>
    cases kind? with
    | none =>
      rw [hp.scan_skip]
      exact ih _ _
    | some kind =>
      rw [hp.scan_token, List.pairwise_cons]
      exact ⟨fun next hn => (start_le_of_mem_scan hn).1, ih _ _⟩

/-- What comes after a token is what is read behind it. -/
theorem scan_after {before after : List Token}
    (h : scan offset line text = before ++ token :: after) :
    ∃ line', after = scan token.stop line' (text.drop (token.stop - offset)) := by
  induction text using reading_induction generalizing offset line before with
  | nil => simp at h
  | @piece c chars later kind? hp ih =>
    have hlater : ∀ {line' : Nat} {before : List Token},
        scan (offset + chars.length + 1) line' later = before ++ token :: after →
        ∃ line'', after = scan token.stop line''
          ((c :: (chars ++ later)).drop (token.stop - offset)) := by
      intro line' before hs
      have hmem : token ∈ scan (offset + chars.length + 1) line' later := by simp [hs]
      obtain ⟨line'', rfl⟩ := ih hs
      have hle := start_le_of_mem_scan hmem
      refine ⟨line'', ?_⟩
      have hsplit : token.stop - offset =
          (c :: chars).length + (token.stop - (offset + chars.length + 1)) := by
        rw [List.length_cons]
        omega
      rw [hsplit, ← List.cons_append, ← List.drop_drop, List.drop_left]
    cases kind? with
    | none =>
      rw [hp.scan_skip] at h
      exact hlater h
    | some kind =>
      rw [hp.scan_token] at h
      cases before with
      | nil =>
        obtain ⟨rfl, rfl⟩ := List.cons.inj h
        refine ⟨_, congrArg _ ?_⟩
        have hsplit : offset + chars.length + 1 - offset = (c :: chars).length := by
          rw [List.length_cons]
          omega
        rw [hsplit, ← List.cons_append, List.drop_left]
      | cons first before => exact hlater (List.cons.inj h).2

end

/-! ## Tokens without their places -/

/-- The kind and the characters of a token. -/
def Token.lexeme (token : Token) : Kind × String :=
  (token.kind, token.text)

/-- The kinds and the characters of the tokens of a text. -/
def lexemes (text : List Char) : List (Kind × String) :=
  (scan 0 1 text).map Token.lexeme

section
variable {c : Char} {chars later rest text : List Char} {kind : Kind} {offset line : Nat}

@[simp] theorem lexemes_nil : lexemes [] = [] := by
  rw [lexemes, scan_nil, List.map_nil]

/-- The lexemes do not depend on where the text begins. -/
theorem map_lexeme_scan (offset line : Nat) (text : List Char) :
    (scan offset line text).map Token.lexeme = lexemes text := by
  unfold lexemes
  induction text using reading_induction generalizing offset line with
  | nil => simp
  | @piece c chars later kind? hp ih =>
    cases kind? with
    | none => rw [hp.scan_skip, hp.scan_skip, ih, ih (0 + chars.length + 1)]
    | some kind =>
      rw [hp.scan_token, hp.scan_token, List.map_cons, List.map_cons, ih,
        ih (0 + chars.length + 1)]
      rfl

/-- White space and comments have no lexemes. -/
theorem Leading.lexemes_skip (h : Leading c chars later none) :
    lexemes (c :: (chars ++ later)) = lexemes later := by
  rw [lexemes, h.scan_skip, map_lexeme_scan]

/-- Any other piece is the first lexeme. -/
theorem Leading.lexemes_token (h : Leading c chars later (some kind)) :
    lexemes (c :: (chars ++ later)) = (kind, String.ofList (c :: chars)) :: lexemes later := by
  rw [lexemes, h.scan_token, List.map_cons, map_lexeme_scan]
  rfl

/-- Blanks in front of a text have no lexemes. -/
theorem lexemes_append_of_blank (h : ∀ d ∈ chars, isBlank d = true) :
    lexemes (chars ++ later) = lexemes later := by
  induction chars with
  | nil => rfl
  | cons c rest ih =>
    have hc : Leading c [] (rest ++ later) none := .blank (h c List.mem_cons_self)
    rw [List.cons_append, ← List.nil_append (rest ++ later), hc.lexemes_skip]
    exact ih fun d hd => h d (List.mem_cons_of_mem _ hd)

end

end Bundler.Source
