import Bundler.Proofs.Concatenation
import Bundler.Proofs.Declarations

/-!
# Code without its declarations

To cut declarations out of a text puts together what stood on both sides of them, and the result is
read anew. A declaration is `Detached` if nothing in front of it reaches across the gap that it
leaves: no slash, star or backslash touches it, and no quotation mark that opens nothing stands in
front of it on its line. If all declarations are detached, cutting them out changes no other token
(`lexemes_withoutImports`), because a piece in front of a gap stays what it is (`Leading.cut`).

* `lexemes_of_leading_lines`: this is so if nothing but white space stands in front of each
  declaration on its line.
* `imports_withoutImports`: no declaration is left if all are detached. It fails for some other
  texts (`declaration_exposed`).
-/

namespace Bundler.Source

open Text

/-- Nothing in front of the declaration reaches across the gap that it leaves. -/
structure Import.Detached (content : String) (declaration : Import) : Prop where
  star : (content.toList.take declaration.start).getLast? ≠ some '*'
  backslash : (content.toList.take declaration.start).getLast? ≠ some '\\'
  slash : ∀ token ∈ tokens content, token.isMark "/" = true → token.stop ≠ declaration.start
  quote : ∀ token ∈ tokens content, token.isMark "\x22" = true ∨ token.isMark "\x27" = true →
    token.stop ≤ declaration.start →
      '\n' ∈ (content.toList.drop token.stop).take (declaration.start - token.stop)

instance (content : String) (declaration : Import) : Decidable (declaration.Detached content) :=
  decidable_of_iff ((content.toList.take declaration.start).getLast? ≠ some '*' ∧
      (content.toList.take declaration.start).getLast? ≠ some '\\' ∧
      (∀ token ∈ tokens content, token.isMark "/" = true → token.stop ≠ declaration.start) ∧
      ∀ token ∈ tokens content, token.isMark "\x22" = true ∨ token.isMark "\x27" = true →
        token.stop ≤ declaration.start →
          '\n' ∈ (content.toList.drop token.stop).take (declaration.start - token.stop))
    ⟨fun h => ⟨h.1, h.2.1, h.2.2.1, h.2.2.2⟩, fun h => ⟨h.star, h.backslash, h.slash, h.quote⟩⟩

/-- Nothing but white space stands in front of the declaration on its line. -/
def Import.LeadsLine (content : String) (declaration : Import) : Prop :=
  ∀ c ∈ (content.toList.take declaration.start).reverse.takeWhile (· ≠ '\n'), isBlank c = true

instance (content : String) (declaration : Import) : Decidable (declaration.LeadsLine content) :=
  List.decidableBAll _ _

section
variable {content : String} {declaration : Import} {declarations : List Import} {token : Token}
  {text chars later : List Char} {offset line : Nat} {c : Char} {kind? : Option Kind}

/-! ## Where tokens and declarations stand in a text -/

/-- A token of a text is the piece that stands at its offset. -/
theorem exists_leading_of_mem_tokens (h : token ∈ tokens content) :
    ∃ before c chars later, content.toList = before ++ c :: (chars ++ later) ∧
      Leading c chars later (some token.kind) ∧ token.text = String.ofList (c :: chars) ∧
      token.start = before.length ∧ token.stop = before.length + chars.length + 1 := by
  obtain ⟨before, c, chars, later, hs, hp, ht, hstart, hstop⟩ := exists_leading_of_mem_scan h
  exact ⟨before, c, chars, later, hs, hp, ht, by omega, by omega⟩

/-- The text up to the end of a token ends with its last character. -/
theorem getLast?_take_stop (h : token ∈ tokens content) :
    (content.toList.take token.stop).getLast? = token.text.toList.getLast? := by
  obtain ⟨before, c, chars, later, hs, -, ht, -, hstop⟩ := exists_leading_of_mem_tokens h
  have htake : content.toList.take token.stop = before ++ c :: chars := by
    have hlength : token.stop = (before ++ c :: chars).length := by
      rw [hstop, List.length_append, List.length_cons]
      omega
    rw [hs, hlength, ← List.cons_append, ← List.append_assoc, List.take_left]
  rw [htake, ht, String.toList_ofList, List.getLast?_append, List.getLast?_cons]
  rfl

/-- A string ends with a quotation mark. -/
theorem getLast?_of_string (h : token ∈ tokens content) (hk : token.kind = .string) :
    ∃ mark, IsQuote mark ∧ token.text.toList.getLast? = some mark := by
  obtain ⟨before, c, chars, later, -, hp, ht, -, -⟩ := exists_leading_of_mem_tokens h
  rw [hk] at hp
  cases hp with
  | string hq hc =>
    have hlast := (stringLength_endsAt hq.classes.2.2.2.1).getLast?_of_closed hc
    exact ⟨c, hq, by rw [ht, String.toList_ofList, List.getLast?_cons, hlast]; rfl⟩

/-- A declaration starts with an `i`, and ends with a quotation mark or a semicolon. -/
theorem ends_of_mem_imports (h : declaration ∈ imports content) :
    (content.toList.drop declaration.start).head? = some 'i' ∧
    ∃ mark, (content.toList.take declaration.stop).getLast? = some mark ∧
      (IsQuote mark ∨ mark = ';') := by
  obtain ⟨first, hf, last, hl, hname, hlast, hstart, hstop⟩ := exists_of_mem_importsAmong h
  constructor
  · obtain ⟨before, c, chars, later, hs, -, ht, hfirst, -⟩ := exists_leading_of_mem_tokens hf
    have htext : first.text = "import" := (Token.of_isName hname).2
    have hc : c = 'i' := by
      rw [ht] at htext
      have hchars := congrArg String.toList htext
      rw [String.toList_ofList] at hchars
      exact (List.cons.inj hchars).1
    rw [hstart, hfirst, hs, List.drop_left, hc]
    rfl
  · rw [hstop, getLast?_take_stop hl]
    rcases hlast with hstring | hmark
    · obtain ⟨mark, hq, hm⟩ := getLast?_of_string hl hstring
      exact ⟨mark, hm, .inl hq⟩
    · exact ⟨';', by rw [(Token.of_isMark hmark).2]; rfl, .inr rfl⟩

/-! ## Pieces in front of a gap -/

/-- A text from one offset on, as what stands up to another offset and what comes after it. -/
theorem drop_eq_take_append (text : List Char) {stop : Nat} (h : offset ≤ stop) :
    text.drop offset = (text.drop offset).take (stop - offset) ++ text.drop stop := by
  have hstop : text.drop stop = (text.drop offset).drop (stop - offset) := by
    rw [List.drop_drop, Nat.add_sub_cancel' h]
  rw [hstop, List.take_append_drop]

/-- What stands behind a piece. -/
theorem drop_behind_piece (h : text.drop offset = c :: (chars ++ later)) :
    text.drop (offset + chars.length + 1) = later := by
  rw [Nat.add_assoc, ← List.drop_drop, h, ← List.length_cons, ← List.cons_append, List.drop_left]

/-- What stands between two offsets ends as the text up to the second one. -/
theorem getLast?_take_drop_ne {stop : Nat} (h : offset ≤ stop)
    (hl : (text.take stop).getLast? ≠ some c) :
    ((text.drop offset).take (stop - offset)).getLast? ≠ some c := by
  intro hlast
  apply hl
  have htake : text.take stop = text.take offset ++ (text.drop offset).take (stop - offset) := by
    conv => lhs; rw [← Nat.add_sub_cancel' h, List.take_add]
  rw [htake, List.getLast?_append, hlast]
  rfl

/-- What stands in front of the declarations is kept. -/
theorem cut_append (hd : text.drop offset = chars ++ later)
    (hs : Spaced (offset + chars.length) declarations) :
    cut text offset declarations = chars ++ cut text (offset + chars.length) declarations := by
  have hlater : text.drop (offset + chars.length) = later := by
    rw [← List.drop_drop, hd, List.drop_left]
  cases declarations with
  | nil => rw [cut, cut, hd, hlater]
  | cons first rest =>
    have hsplit : first.start - offset =
        chars.length + (first.start - (offset + chars.length)) := by
      have := hs.1
      omega
    rw [cut, cut, hd, hlater, hsplit, List.take_length_add_append, List.append_assoc]

/-- Where no declaration starts, the text goes on with the same character. -/
theorem head?_cut (hs : Spaced offset declarations)
    (hi : ∀ declaration ∈ declarations, (text.drop declaration.start).head? = some 'i')
    (hne : ∀ declaration ∈ declarations, declaration.start ≠ offset) :
    (cut text offset declarations).head? = (text.drop offset).head? := by
  cases declarations with
  | nil => rw [cut]
  | cons first rest =>
    have hlt : offset < first.start :=
      Nat.lt_of_le_of_ne hs.1 (hne first List.mem_cons_self).symm
    have hfirst := hi first List.mem_cons_self
    have hstart : text.drop first.start = (text.drop offset).drop (first.start - offset) := by
      rw [List.drop_drop, Nat.add_sub_cancel' hs.1]
    rw [cut]
    cases hd : text.drop offset with
    | nil =>
      rw [hstart, hd] at hfirst
      simp at hfirst
    | cons d more =>
      obtain ⟨n, hn⟩ : ∃ n, first.start - offset = n + 1 := ⟨first.start - offset - 1, by omega⟩
      rw [hn]
      rfl

/-- What stops a run still stops it, since an `i` would not have stopped it. -/
theorem StopsAt.of_cut {goesOn : Char → Bool} (hp : goesOn 'i' = true)
    (hs : Spaced offset declarations)
    (hi : ∀ declaration ∈ declarations, (text.drop declaration.start).head? = some 'i')
    (h : StopsAt goesOn (text.drop offset)) : StopsAt goesOn (cut text offset declarations) := by
  have hne : ∀ declaration ∈ declarations, declaration.start ≠ offset := by
    rintro declaration hd rfl
    have hstop := h 'i' (hi declaration hd)
    rw [hp] at hstop
    cases hstop
  unfold StopsAt
  rw [head?_cut hs hi hne]
  exact h

/-- A mark that is missing is still missing, if no gap cuts a mark in two. -/
theorem cut_eq_none {reach : List Char → Option Nat} {mark : Char}
    (hr : ∀ {chars later : List Char}, chars.getLast? ≠ some mark →
      (reach (chars ++ later) = none ↔ reach chars = none ∧ reach later = none))
    (hs : Spaced offset declarations)
    (hm : ∀ declaration ∈ declarations, (text.take declaration.start).getLast? ≠ some mark ∧
      (text.take declaration.stop).getLast? ≠ some mark)
    (h : reach (text.drop offset) = none) : reach (cut text offset declarations) = none := by
  induction declarations generalizing offset with
  | nil => rwa [cut]
  | cons first rest ih =>
    obtain ⟨hstart, hlength, hrest⟩ := hs
    obtain ⟨hbefore, hlast⟩ := hm first List.mem_cons_self
    have hkept := getLast?_take_drop_ne hstart hbefore
    have hgap := getLast?_take_drop_ne (Nat.le_of_lt hlength) hlast
    rw [drop_eq_take_append text hstart, hr hkept] at h
    obtain ⟨hleft, hright⟩ := h
    rw [drop_eq_take_append text (Nat.le_of_lt hlength), hr hgap] at hright
    rw [cut, hr hkept]
    exact ⟨hleft, ih hrest (fun other ho => hm other (List.mem_cons_of_mem _ ho)) hright.2⟩

/-- Whether a string is closed is decided in front of the first line feed. -/
theorem stringLength_cut {mark : Char} (hm : mark ≠ '\\') (hl : mark ≠ '\n')
    (hs : Spaced offset declarations)
    (hn : ∀ declaration ∈ declarations.head?,
      '\n' ∈ (text.drop offset).take (declaration.start - offset)) :
    stringLength mark (cut text offset declarations) = stringLength mark (text.drop offset) := by
  cases declarations with
  | nil => rw [cut]
  | cons first rest =>
    obtain ⟨line, more, hline⟩ := List.append_of_mem (hn first rfl)
    have hdrop := drop_eq_take_append text hs.1
    rw [hline, List.append_assoc, List.cons_append] at hdrop
    rw [cut, hline, hdrop, List.append_assoc, List.cons_append,
      stringLength_append_lineFeed hm hl, stringLength_append_lineFeed hm hl]

/-- A piece in front of gaps stays what it is, if the declarations that stood in them are detached.
The offset is the one behind the piece. -/
theorem Leading.of_cut (h : Leading c chars (content.toList.drop offset) kind?)
    (hs : Spaced offset declarations)
    (hd : ∀ declaration ∈ declarations,
      declaration ∈ imports content ∧ declaration.Detached content)
    (ht : ∀ kind, kind? = some kind → ∃ token ∈ tokens content, token.kind = kind ∧
      token.text = String.ofList (c :: chars) ∧ token.stop = offset) :
    Leading c chars (cut content.toList offset declarations) kind? := by
  have hi : ∀ declaration ∈ declarations,
      (content.toList.drop declaration.start).head? = some 'i' :=
    fun declaration hm => (ends_of_mem_imports (hd declaration hm).1).1
  have hlast : ∀ {mark : Char}, ¬ IsQuote mark → mark ≠ ';' → ∀ declaration ∈ declarations,
      (content.toList.take declaration.stop).getLast? ≠ some mark := by
    intro mark hq hc declaration hm he
    obtain ⟨-, last, hlast, hends⟩ := ends_of_mem_imports (hd declaration hm).1
    rw [hlast] at he
    cases he
    exact hends.elim hq hc
  -- No declaration touches a slash that is punctuation.
  have hslash : c = '/' → chars = [] → kind? = some .punctuation →
      ∀ declaration ∈ declarations, declaration.start ≠ offset := by
    rintro rfl rfl rfl declaration hm he
    obtain ⟨token, htoken, hkind, htext, hstop⟩ := ht _ rfl
    have hmark : token.isMark "/" = true := by simp [Token.isMark, hkind, htext]
    exact (hd declaration hm).2.slash token htoken hmark (hstop.trans he.symm)
  generalize hlater : content.toList.drop offset = later at h
  cases h with
  | blank hb => exact .blank hb
  | number hdigit hc hl => exact .number hdigit hc (.of_cut (by decide +kernel) hs hi (hlater ▸ hl))
  | name hdigit hname hc hl =>
    exact .name hdigit hname hc (.of_cut (by decide +kernel) hs hi (hlater ▸ hl))
  | string hq hc => exact .string hq hc
  | openString hq hr =>
    obtain ⟨token, htoken, hkind, htext, hstop⟩ := ht _ rfl
    obtain ⟨-, -, -, hescape, hline⟩ := hq.classes
    have hmark : token.isMark "\x22" = true ∨ token.isMark "\x27" = true := by
      rcases hq with rfl | rfl
      · exact .inl (by simp [Token.isMark, hkind, htext])
      · exact .inr (by simp [Token.isMark, hkind, htext])
    refine .openString hq ?_
    rw [stringLength_cut hescape hline hs, hlater, hr]
    intro declaration hm
    have hmem := List.mem_of_mem_head? hm
    have hle := hs.le_start declaration hmem
    exact hstop ▸ (hd declaration hmem).2.quote token htoken hmark (hstop ▸ hle)
  | template hc => exact .template hc
  | openTemplate hr =>
    have hmarks : ∀ declaration ∈ declarations,
        (content.toList.take declaration.start).getLast? ≠ some '\\' ∧
          (content.toList.take declaration.stop).getLast? ≠ some '\\' := fun declaration hm =>
      ⟨(hd declaration hm).2.backslash, hlast (by unfold IsQuote; decide) (by decide) _ hm⟩
    exact .openTemplate (cut_eq_none templateLength_append_eq_none_iff hs hmarks (hlater ▸ hr))
  | lineComment hc hl => exact .lineComment hc (.of_cut (by decide) hs hi (hlater ▸ hl))
  | blockComment hc => exact .blockComment hc
  | @openComment inside hr =>
    have hmarks : ∀ declaration ∈ declarations,
        (content.toList.take declaration.start).getLast? ≠ some '*' ∧
          (content.toList.take declaration.stop).getLast? ≠ some '*' := fun declaration hm =>
      ⟨(hd declaration hm).2.star, hlast (by unfold IsQuote; decide) (by decide) _ hm⟩
    have hnext : Spaced (offset + ['*'].length) declarations := hs.succ (hslash rfl rfl rfl)
    have hinside : content.toList.drop (offset + ['*'].length) = inside := by
      rw [← List.drop_drop, hlater]
      rfl
    have hkept : cut content.toList offset declarations =
        ['*'] ++ cut content.toList (offset + ['*'].length) declarations := cut_append hlater hnext
    rw [hkept]
    exact .openComment (cut_eq_none blockCommentLength_append_eq_none_iff hnext hmarks
      (hinside ▸ hr))
  | slash hline hstar =>
    have hhead := head?_cut hs hi (hslash rfl rfl rfl)
    rw [hlater] at hhead
    exact .slash (hhead ▸ hline) (hhead ▸ hstar)
  | mark hm => exact .mark hm

/-! ## Cutting out all declarations -/

/-- What comes after a declaration is what is read behind it. -/
theorem scan_behind_clause {bound : Bool} {clause : Clause}
    (hr : Clause.read? bound (scan offset line (text.drop offset)) = some clause) :
    ∃ line', (scan offset line (text.drop offset)).drop clause.length =
      scan clause.last.stop line' (text.drop clause.last.stop) ∧ offset < clause.last.stop := by
  obtain ⟨before, hs, -, -⟩ := Clause.exists_of_read? hr
  have hlast : clause.last ∈ scan offset line (text.drop offset) := by
    rw [hs]
    simp
  have hstop := start_le_of_mem_scan hlast
  obtain ⟨line', hafter⟩ := scan_after hs
  refine ⟨line', ?_, by omega⟩
  rw [hafter, List.drop_drop, Nat.add_sub_cancel' (by omega)]

/-- One step of cutting: what a piece in front of the declarations adds to the lexemes. -/
theorem lexemes_cut_of_leading (hp : Leading c chars later kind?)
    (hc : content.toList.drop offset = c :: (chars ++ later))
    (hs : Spaced (offset + chars.length + 1) declarations)
    (hd : ∀ declaration ∈ declarations,
      declaration ∈ imports content ∧ declaration.Detached content)
    (ht : ∀ kind, kind? = some kind → ∃ token ∈ tokens content, token.kind = kind ∧
      token.text = String.ofList (c :: chars) ∧ token.stop = offset + chars.length + 1) :
    lexemes (cut content.toList offset declarations) =
      (kind?.map fun kind => (kind, String.ofList (c :: chars))).toList ++
        lexemes (cut content.toList (offset + chars.length + 1) declarations) := by
  have hlater := drop_behind_piece hc
  have hcut := Leading.of_cut (hlater.symm ▸ hp) hs hd ht
  have hkept : cut content.toList offset declarations = (c :: chars) ++
      cut content.toList (offset + chars.length + 1) declarations := cut_append hc hs
  rw [hkept, List.cons_append]
  cases kind? with
  | none => exact hcut.lexemes_skip
  | some kind => exact hcut.lexemes_token

/-- Without its declarations, a text has the lexemes of the tokens outside them. The text is looked
at from an offset on where a token may start. -/
theorem lexemes_cut {afterDot : Bool}
    (ht : ∀ token ∈ scan offset line (content.toList.drop offset), token ∈ tokens content)
    (hd : ∀ declaration ∈ importsAmong afterDot (scan offset line (content.toList.drop offset)),
      declaration ∈ imports content ∧ declaration.Detached content) :
    lexemes (cut content.toList offset
        (importsAmong afterDot (scan offset line (content.toList.drop offset)))) =
      (remaining afterDot (scan offset line (content.toList.drop offset))).map Token.lexeme := by
  induction hn : (content.toList.drop offset).length using Nat.strongRecOn
    generalizing offset line afterDot with
  | ind n ih =>
    cases hc : content.toList.drop offset with
    | nil => simp [cut, hc]
    | cons c rest =>
      obtain ⟨chars, later, kind?, rfl, hp⟩ := exists_leading c rest
      have hlater := drop_behind_piece hc
      have hshorter : later.length < n := by
        rw [← hn, hc, List.length_cons, List.length_append]
        omega
      have hspaced : ∀ {afterDot : Bool} {line : Nat}, Spaced (offset + chars.length + 1)
          (importsAmong afterDot (scan (offset + chars.length + 1) line later)) :=
        spaced_importsAmong (ordered_scan _ _ _)
      rw [hc] at ht hd
      cases kind? with
      | none =>
        rw [hp.scan_skip] at ht hd ⊢
        rw [lexemes_cut_of_leading hp hc hspaced hd nofun, Option.map_none, Option.toList_none,
          List.nil_append]
        subst hlater
        exact ih _ hshorter ht hd rfl
      | some kind =>
        rw [hp.scan_token] at ht hd ⊢
        generalize hfirst : (⟨kind, String.ofList (c :: chars), offset,
          offset + chars.length + 1, line⟩ : Token) = first at ht hd ⊢
        generalize hline : line + lineFeeds (c :: chars) = line' at ht hd ⊢
        have hrest : ∀ token ∈ scan (offset + chars.length + 1) line' later,
            token ∈ tokens content := fun token hm => ht token (List.mem_cons_of_mem _ hm)
        by_cases hs : first.Stays afterDot (scan (offset + chars.length + 1) line' later)
        · rw [importsAmong_stays hs] at hd ⊢
          have hat : ∀ other, some kind = some other → ∃ token ∈ tokens content,
              token.kind = other ∧ token.text = String.ofList (c :: chars) ∧
                token.stop = offset + chars.length + 1 := by
            rintro other ⟨⟩
            refine ⟨first, ht first List.mem_cons_self, ?_⟩
            rw [← hfirst]
            exact ⟨rfl, rfl, rfl⟩
          rw [lexemes_cut_of_leading hp hc hspaced hd hat, remaining_stays hs, List.map_cons]
          subst hlater
          rw [ih _ hshorter hrest hd rfl, ← hfirst]
          rfl
        · -- The first piece starts a declaration, and the scan goes on behind it.
          simp only [Token.Stays, Classical.not_imp] at hs
          obtain ⟨hname, rfl, hr⟩ := hs
          obtain ⟨clause, hclause⟩ := Option.ne_none_iff_exists'.1 hr
          rw [importsAmong_declaration hname hclause] at hd ⊢
          rw [remaining_declaration hname hclause, cut]
          have hstart : (clause.toImport first).start - offset = 0 := by
            rw [← hfirst]
            exact Nat.sub_self offset
          subst hlater
          obtain ⟨line'', hdrop, hlt⟩ := scan_behind_clause hclause
          have hmem : ∀ token ∈ scan clause.last.stop line''
              (content.toList.drop clause.last.stop), token ∈ tokens content := by
            rw [← hdrop]
            exact fun token hm => hrest token (List.mem_of_mem_drop hm)
          have hless : (content.toList.drop clause.last.stop).length < n := by
            rw [List.length_drop] at hshorter ⊢
            omega
          rw [hdrop] at hd ⊢
          rw [hstart, List.take_zero, List.nil_append]
          exact ih _ hless hmem (fun other ho => hd other (List.mem_cons_of_mem _ ho)) rfl

/-- The lexemes of a text without its declarations are those of the tokens outside them, if the
declarations are detached. -/
theorem lexemes_withoutImports
    (hd : ∀ declaration ∈ imports content, declaration.Detached content) :
    (tokens (withoutImports content)).map Token.lexeme =
      (remaining false (tokens content)).map Token.lexeme := by
  have hcut : lexemes (cut content.toList 0 (imports content)) =
      (remaining false (tokens content)).map Token.lexeme :=
    lexemes_cut (fun _ ht => ht) fun declaration hm => ⟨hm, hd declaration hm⟩
  calc (tokens (withoutImports content)).map Token.lexeme
      = lexemes (trim (cut content.toList 0 (imports content))) := by
        rw [withoutImports, without, tokens, String.toList_ofList]
        rfl
    _ = lexemes (cut content.toList 0 (imports content)) := lexemes_trim _
    _ = (remaining false (tokens content)).map Token.lexeme := hcut

/-! ## Declarations on lines of their own -/

/-- What stands in front of such a declaration on its line is blank. -/
theorem Import.LeadsLine.isBlank_of_eq {front back : List Char} (h : declaration.LeadsLine content)
    (hs : content.toList.take declaration.start = front ++ c :: back) (hn : '\n' ∉ c :: back) :
    isBlank c = true := by
  apply h
  have hback : ∀ d ∈ back.reverse, decide (d ≠ '\n') = true := by
    intro d hd
    rw [decide_eq_true_iff]
    rintro rfl
    exact hn (List.mem_cons_of_mem _ (List.mem_reverse.1 hd))
  have hc : decide (c ≠ '\n') = true := by
    rw [decide_eq_true_iff]
    rintro rfl
    exact hn List.mem_cons_self
  rw [hs, List.reverse_append, List.reverse_cons, List.append_assoc, List.singleton_append,
    List.takeWhile_append_of_pos hback, List.takeWhile_cons, if_pos hc]
  simp

/-- Such a declaration is detached. -/
theorem Import.LeadsLine.detached (h : declaration.LeadsLine content) :
    declaration.Detached content := by
  have hlast : ∀ {mark : Char}, mark ≠ '\n' → isBlank mark = false →
      (content.toList.take declaration.start).getLast? ≠ some mark := by
    intro mark hm hb he
    obtain ⟨front, hs⟩ := List.getLast?_eq_some_iff.1 he
    rw [h.isBlank_of_eq hs (by simpa using hm.symm)] at hb
    cases hb
  constructor
  case star => exact hlast (by decide) (by decide +kernel)
  case backslash => exact hlast (by decide) (by decide +kernel)
  case slash =>
    intro token ht hm he
    refine hlast (by decide) classes_slash.1 ?_
    rw [← he, getLast?_take_stop ht, (Token.of_isMark hm).2]
    rfl
  case quote =>
    intro token ht hm hle
    obtain ⟨mark, hq, hmark⟩ : ∃ mark, IsQuote mark ∧ token.text.toList.getLast? = some mark := by
      rcases hm with hm | hm
      · exact ⟨'\x22', .inl rfl, by rw [(Token.of_isMark hm).2]; rfl⟩
      · exact ⟨'\x27', .inr rfl, by rw [(Token.of_isMark hm).2]; rfl⟩
    obtain ⟨hblank, -, -, -, hline⟩ := hq.classes
    apply Classical.byContradiction
    intro hn
    rw [← getLast?_take_stop ht] at hmark
    obtain ⟨front, hfront⟩ := List.getLast?_eq_some_iff.1 hmark
    have hs : content.toList.take declaration.start = front ++
        mark :: (content.toList.drop token.stop).take (declaration.start - token.stop) := by
      conv => lhs; rw [← Nat.add_sub_cancel' hle, List.take_add, hfront]
      simp
    rw [h.isBlank_of_eq hs (by simp [hline.symm, hn])] at hblank
    cases hblank

/-! ## Main statements -/

/-- Cutting out declarations on lines of their own changes no token outside them. -/
theorem lexemes_of_leading_lines
    (h : ∀ declaration ∈ imports content, declaration.LeadsLine content) :
    (tokens (withoutImports content)).map Token.lexeme =
      ((tokens content).filter fun token =>
        !(imports content).any (·.covers token)).map Token.lexeme := by
  have hfilter : (tokens content).filter
      (fun token => !(importsAmong false (tokens content)).any (·.covers token)) =
        remaining false (tokens content) := filter_covers (ordered_scan 0 1 content.toList)
  rw [lexemes_withoutImports fun declaration hm => (h declaration hm).detached, imports, hfilter]

/-- A text that opens a string, a template and a block comment in front of its declarations, and
closes none of them. -/
def unclosed : String :=
  "it's = \x60 + /*\n  import a from \"a\" // \\\n\timport b,\n * as c from '\\'';d"

/-- In the text that closes nothing, the tokens outside the two declarations stay the same. -/
theorem lexemes_of_leading_lines_unclosed :
    (∀ declaration ∈ imports unclosed, declaration.LeadsLine unclosed) ∧
    withoutImports unclosed = "it's = \x60 + /*\n   // \\\n\td" ∧
    (tokens (withoutImports unclosed)).map Token.lexeme =
      ((tokens unclosed).filter fun token =>
        !(imports unclosed).any (·.covers token)).map Token.lexeme :=
  have h : ∀ declaration ∈ imports unclosed, declaration.LeadsLine unclosed := by decide +kernel
  ⟨h, by decide +kernel, lexemes_of_leading_lines h⟩

/-- What is left of a text without its declarations has no declaration, if all of them are
detached. -/
theorem imports_withoutImports
    (h : ∀ declaration ∈ imports content, declaration.Detached content) :
    imports (withoutImports content) = [] :=
  importsAmong_eq_nil_of_lexemes (lexemes_withoutImports h).symm
    (importsAmong_remaining false (tokens content))

/-- Two declarations on one line, between comments and strings that are closed. -/
theorem imports_withoutImports_inline :
    (∀ declaration ∈ imports "f('\\''); /* it's */import a from \"a\";import b from './b' // '",
      declaration.Detached "f('\\''); /* it's */import a from \"a\";import b from './b' // '") ∧
    imports (withoutImports "f('\\''); /* it's */import a from \"a\";import b from './b' // '") =
      [] :=
  have h : ∀ declaration ∈ imports
      "f('\\''); /* it's */import a from \"a\";import b from './b' // '",
      declaration.Detached "f('\\''); /* it's */import a from \"a\";import b from './b' // '" := by
    decide +kernel
  ⟨h, imports_withoutImports h⟩

/-- A text with a declaration between two stray quotation marks and another one between the second
of them and a third. -/
def concealing : String :=
  "const q = /\"/; import \x7b\n  a\n\x7d from \"x\"; const r = /\"/; import \x7b b \x7d from \"y\";"

/-- A declaration that is not detached can leave another one behind: two quotation marks meet when
it is cut out, and what was a string between the second one and a third is code. -/
theorem declaration_exposed : imports (withoutImports concealing) = [⟨"y", 31, 53, 1⟩] := by
  decide +kernel

end

end Bundler.Source
