import Bundler.Proofs.Joining
import Bundler.Proofs.Reading

/-!
# Tokens of joined texts

A text reaches across a line feed at its end only if it opens a template or a block comment that it
does not close, since strings and line comments end with their line (`Leading.append_lineFeed`). So
the tokens of a text that closes what it opens (`SelfContained`) are the same whatever is put below
it (`scan_append`), and texts on lines of their own have their tokens one after the other
(`lexemes_joinFilled`). Blanks at the ends of a text change no token (`lexemes_trim`).
-/

namespace Bundler.Source

open Text

/-- No token opens a template or a block comment that is not closed. -/
structure Finished (tokens : List Token) : Prop where
  noTemplate : ∀ token ∈ tokens, token.isMark "\x60" = false
  noComment : ∀ token ∈ tokens, ∀ next ∈ tokens, token.isMark "/" = true →
    next.isMark "*" = true → token.stop ≠ next.start

/-- The text closes all that it opens: none of its tokens is the mark around a template, and no
slash stands directly in front of a star. -/
def SelfContained (code : String) : Prop :=
  Finished (tokens code)

instance (code : String) : Decidable (SelfContained code) :=
  decidable_of_iff ((∀ token ∈ tokens code, token.isMark "\x60" = false) ∧
      ∀ token ∈ tokens code, ∀ next ∈ tokens code, token.isMark "/" = true →
        next.isMark "*" = true → token.stop ≠ next.start)
    ⟨fun h => ⟨h.1, h.2⟩, fun h => ⟨h.noTemplate, h.noComment⟩⟩

section
variable {c : Char} {chars later text : List Char} {kind? : Option Kind} {kind : Kind}
  {offset line : Nat} {tokens others : List Token}

/-- Fewer tokens open nothing either. -/
theorem Finished.mono (h : Finished tokens) (hs : others ⊆ tokens) : Finished others where
  noTemplate token ht := h.noTemplate token (hs ht)
  noComment token ht next hn := h.noComment token (hs ht) next (hs hn)

/-! ## Line feeds -/

/-- No character of a name or a number is blank. -/
theorem stopsAt_of_blank (h : isBlank c = true) :
    StopsAt isNumberPart (c :: text) ∧ StopsAt isNamePart (c :: text) := by
  have hword := isWord_eq_false_of_isBlank h
  have hne : ∀ d : Char, isBlank d = false → (c == d) = false := by
    intro d hd
    rw [beq_eq_false_iff_ne]
    rintro rfl
    rw [h] at hd
    cases hd
  constructor <;> rintro d ⟨⟩
  · simp [isNumberPart, hword, hne '.' (by decide +kernel)]
  · simp [isNamePart, hword, hne '$' (by decide +kernel)]

/-- A run that stops stops all the more when more text follows, if that stops it too. -/
theorem StopsAt.append {goesOn : Char → Bool} {more : List Char} (h : StopsAt goesOn later)
    (hm : StopsAt goesOn more) : StopsAt goesOn (later ++ more) := by
  cases later with
  | nil => exact hm
  | cons d rest => exact h

/-- Text below a text leaves its first piece as it is, if the text closes what it opens. -/
theorem Leading.append_lineFeed (h : Leading c chars later kind?)
    (hf : Finished (scan offset line (c :: (chars ++ later)))) (below : List Char) :
    Leading c chars (later ++ '\n' :: below) kind? := by
  have hstops : StopsAt isNumberPart ('\n' :: below) ∧ StopsAt isNamePart ('\n' :: below) :=
    stopsAt_of_blank (by decide +kernel)
  have hcopy := h
  cases h with
  | blank hb => exact .blank hb
  | number hd hc hl => exact .number hd hc (hl.append hstops.1)
  | name hd hn hc hl => exact .name hd hn hc (hl.append hstops.2)
  | string hq hc => exact .string hq hc
  | openString hq hr =>
    obtain ⟨-, -, -, hescape, hline⟩ := hq.classes
    exact .openString hq (by rw [stringLength_append_lineFeed hescape hline, hr])
  | template hc => exact .template hc
  | openTemplate =>
    rw [hcopy.scan_token] at hf
    have hmark := hf.noTemplate _ List.mem_cons_self
    simp [Token.isMark, templateMark] at hmark
  | lineComment hc hl =>
    refine .lineComment hc (hl.append ?_)
    rintro d ⟨⟩
    rfl
  | blockComment hc => exact .blockComment hc
  | @openComment inside hr =>
    -- The star behind the slash is a token of its own.
    have hstar : Leading '*' [] inside (some .punctuation) :=
      .mark ⟨by decide +kernel, by decide +kernel, by decide +kernel, by unfold IsQuote; decide,
        by decide, by decide⟩
    rw [hcopy.scan_token, ← List.nil_append inside, hstar.scan_token] at hf
    exact absurd rfl (hf.noComment _ List.mem_cons_self _ (List.mem_cons_of_mem _
      List.mem_cons_self) (by simp [Token.isMark]) (by simp [Token.isMark]))
  | slash hline hstar =>
    cases later with
    | nil => exact .slash (by simp) (by simp)
    | cons d rest => exact .slash hline hstar
  | mark hm => exact .mark hm

/-- The tokens of a text that closes what it opens, above any other text. -/
theorem scan_append (hf : Finished (scan offset line text)) (below : List Char) :
    scan offset line (text ++ '\n' :: below) = scan offset line text ++
      scan (offset + text.length) (line + lineFeeds text) ('\n' :: below) := by
  induction text using reading_induction generalizing offset line with
  | nil => simp [lineFeeds]
  | @piece c chars later kind? hp ih =>
    have happend := hp.append_lineFeed hf below
    have hlength : offset + (c :: (chars ++ later)).length =
        offset + chars.length + 1 + later.length := by
      rw [List.length_cons, List.length_append]
      omega
    have hlines : line + lineFeeds (c :: (chars ++ later)) =
        line + lineFeeds (c :: chars) + lineFeeds later := by
      rw [← List.cons_append, lineFeeds, List.count_append, ← Nat.add_assoc]
      rfl
    rw [hlength, hlines, List.cons_append, List.append_assoc]
    cases kind? with
    | none =>
      rw [hp.scan_skip] at hf ⊢
      rw [happend.scan_skip, ih hf]
    | some kind =>
      rw [hp.scan_token] at hf ⊢
      rw [happend.scan_token, ih (hf.mono (List.subset_cons_self _ _)), List.cons_append]

/-- The lexemes of a text that closes what it opens, above any other text. -/
theorem lexemes_append {code : String} (hs : SelfContained code) (below : List Char) :
    lexemes (code.toList ++ '\n' :: below) = lexemes code.toList ++ lexemes below := by
  have hblank : ∀ d ∈ ['\n'], isBlank d = true := List.forall_mem_singleton.2 (by decide +kernel)
  have hbelow : lexemes ('\n' :: below) = lexemes below := lexemes_append_of_blank hblank
  have hlexemes := congrArg (List.map Token.lexeme) (scan_append hs below)
  rwa [List.map_append, map_lexeme_scan, map_lexeme_scan, map_lexeme_scan, hbelow] at hlexemes

/-- The lexemes of texts on lines of their own, if all but the last close what they open. -/
theorem lexemes_joinLines {codes : List String} (hs : ∀ code ∈ codes.dropLast, SelfContained code) :
    lexemes (joinLines codes).toList = codes.flatMap fun code => lexemes code.toList := by
  induction codes with
  | nil => simp [joinLines]
  | cons code rest ih =>
    cases rest with
    | nil => simp [joinLines]
    | cons next more =>
      have hjoin : joinLines (code :: next :: more) = code ++ "\n" ++ joinLines (next :: more) := by
        rw [joinLines, String.intercalate_cons_cons]
        rfl
      have htext : (joinLines (code :: next :: more)).toList =
          code.toList ++ '\n' :: (joinLines (next :: more)).toList := by
        rw [hjoin, String.toList_append, String.toList_append, List.append_assoc]
        rfl
      rw [List.dropLast_cons_cons] at hs
      rw [htext, lexemes_append (hs code List.mem_cons_self), List.flatMap_cons,
        ih fun other ho => hs other (List.mem_cons_of_mem _ ho)]

/-- Texts that are empty have no lexemes, and it does not matter that they are left out. -/
theorem lexemes_joinFilled {codes : List String}
    (hs : ∀ code ∈ (codes.filter (· ≠ "")).dropLast, SelfContained code) :
    lexemes (joinFilled codes).toList = codes.flatMap fun code => lexemes code.toList := by
  have hfilter : ((codes.filter (· ≠ "")).flatMap fun code => lexemes code.toList) =
      codes.flatMap fun code => lexemes code.toList := by
    clear hs
    induction codes with
    | nil => rfl
    | cons code rest ih =>
      by_cases he : code = ""
      · subst he
        rw [List.filter_cons_of_neg (by simp), List.flatMap_cons, ih]
        simp
      · rw [List.filter_cons_of_pos (by simpa using he), List.flatMap_cons, List.flatMap_cons, ih]
  rw [joinFilled, lexemes_joinLines hs, hfilter]

/-! ## Blanks at the ends -/

/-- Blanks at the end leave a first piece as it is, but for a comment, which they may lengthen. -/
theorem Leading.append_blanks {blanks : List Char} (h : Leading c chars later kind?)
    (hb : ∀ d ∈ blanks, isBlank d = true) (hne : kind? = none → later ≠ []) :
    Leading c chars (later ++ blanks) kind? := by
  have hnot : ∀ {d : Char}, isBlank d = false → d ∉ blanks := by
    intro d hd hm
    rw [hb d hm] at hd
    cases hd
  have hstops : StopsAt isNumberPart blanks ∧ StopsAt isNamePart blanks := by
    cases blanks with
    | nil => constructor <;> rintro d ⟨⟩
    | cons d more => exact stopsAt_of_blank (hb d List.mem_cons_self)
  cases h with
  | blank hc => exact .blank hc
  | number hd hc hl => exact .number hd hc (hl.append hstops.1)
  | name hd hn hc hl => exact .name hd hn hc (hl.append hstops.2)
  | string hq hc => exact .string hq hc
  | openString hq hr =>
    obtain ⟨hblank, -, -, hescape, -⟩ := hq.classes
    exact .openString hq ((stringLength_endsAt hescape).append_eq_none (hnot hblank) hr)
  | template hc => exact .template hc
  | openTemplate hr =>
    exact .openTemplate (templateLength_endsAt.append_eq_none (hnot classes_templateMark.1) hr)
  | lineComment hc hl =>
    cases later with
    | nil => exact absurd rfl (hne rfl)
    | cons d rest => exact .lineComment hc hl
  | blockComment hc => exact .blockComment hc
  | openComment hr =>
    exact .openComment (blockCommentLength_endsAt.append_eq_none (hnot classes_slash.1) hr)
  | slash hline hstar =>
    cases later with
    | nil =>
      have hhead : ∀ {d : Char}, isBlank d = false → blanks.head? ≠ some d :=
        fun hd he => hnot hd (List.mem_of_head? he)
      exact .slash (hhead classes_slash.1) (hhead (by decide +kernel))
    | cons d rest => exact .slash hline hstar
  | mark hm => exact .mark hm

/-- Blanks have no tokens. -/
theorem scan_of_blank {blanks : List Char} (hb : ∀ d ∈ blanks, isBlank d = true) :
    scan offset line blanks = [] := by
  induction blanks generalizing offset line with
  | nil => rw [scan_nil]
  | cons c rest ih =>
    rw [scan_blank (hb c List.mem_cons_self), ih fun d hd => hb d (List.mem_cons_of_mem _ hd)]

/-- White space or a comment with blanks behind it has no tokens. -/
theorem Leading.scan_append_blanks {blanks : List Char} (h : Leading c chars [] none)
    (hb : ∀ d ∈ blanks, isBlank d = true) : scan offset line (c :: (chars ++ blanks)) = [] := by
  generalize hl : ([] : List Char) = later at h
  cases h with
  | blank hc =>
    rw [Leading.scan_skip (.blank hc)]
    exact scan_of_blank hb
  | @lineComment run _ hc _ =>
    -- The comment goes on in the blanks, up to the first line feed in them.
    obtain ⟨more, rest, rfl, hm, hr⟩ := exists_run (· ≠ '\n') blanks
    have hcomment : Leading '/' ('/' :: (run ++ more)) rest none := by
      refine .lineComment (fun d hd => ?_) hr
      rcases List.mem_append.1 hd with hd | hd
      · exact hc d hd
      · simpa using hm d hd
    rw [List.cons_append, ← List.append_assoc, ← List.cons_append, hcomment.scan_skip]
    exact scan_of_blank fun d hd => hb d (List.mem_append_right _ hd)
  | blockComment hc =>
    rw [Leading.scan_skip (.blockComment hc)]
    exact scan_of_blank hb

/-- Blanks at the end of a text change no token. -/
theorem scan_append_blanks {blanks : List Char} (hb : ∀ d ∈ blanks, isBlank d = true)
    (text : List Char) : scan offset line (text ++ blanks) = scan offset line text := by
  induction text using reading_induction generalizing offset line with
  | nil => rw [List.nil_append, scan_nil, scan_of_blank hb]
  | @piece c chars later kind? hp ih =>
    rw [List.cons_append, List.append_assoc]
    cases kind? with
    | none =>
      cases later with
      | nil => rw [List.nil_append, hp.scan_append_blanks hb, hp.scan_skip, scan_nil]
      | cons d rest =>
        have hp' := hp.append_blanks hb fun _ => List.cons_ne_nil d rest
        rw [hp'.scan_skip, hp.scan_skip, ih]
    | some kind =>
      have hp' := hp.append_blanks hb nofun
      rw [hp'.scan_token, hp.scan_token, ih]

/-- Trimming a text changes no lexeme. -/
@[simp] theorem lexemes_trim (text : List Char) : lexemes (trim text) = lexemes text := by
  have hend : ∀ text : List Char, lexemes (trimEnd text) = lexemes text := by
    intro text
    have hsplit := List.takeWhile_append_dropWhile (p := isBlank) (l := text.reverse)
    have htext : text = trimEnd text ++ (text.reverse.takeWhile isBlank).reverse := by
      rw [trimEnd, ← List.reverse_append, hsplit, List.reverse_reverse]
    have hblank : ∀ d ∈ (text.reverse.takeWhile isBlank).reverse, isBlank d = true :=
      fun d hd => List.all_eq_true.1 List.all_takeWhile d (List.mem_reverse.1 hd)
    calc lexemes (trimEnd text)
        = lexemes (trimEnd text ++ (text.reverse.takeWhile isBlank).reverse) := by
          rw [lexemes, lexemes, scan_append_blanks hblank]
      _ = lexemes text := by rw [← htext]
  have hstart : lexemes (text.dropWhile isBlank) = lexemes text := by
    have hblank : ∀ d ∈ text.takeWhile isBlank, isBlank d = true :=
      fun d hd => List.all_eq_true.1 List.all_takeWhile d hd
    calc lexemes (text.dropWhile isBlank)
        = lexemes (text.takeWhile isBlank ++ text.dropWhile isBlank) :=
          (lexemes_append_of_blank hblank).symm
      _ = lexemes text := by rw [List.takeWhile_append_dropWhile]
  rw [trim, hend, hstart]

end

end Bundler.Source
