import Bundler.Proofs.Terminals

/-!
# Tokens cover their text

Every text is read to its end. What stands in front of the first token, between two tokens and
behind the last one is white space and comments (`IsGap`), and each token stands where it says, is a
terminal of its kind, and reaches as far as it can (`Token.StandsIn`). A name and a number end where
no character goes on with them, and since this holds of the piece in front as well
(`Leading.stopsAt_isWord`), no word begins behind a character of a name. `tokens_cover` says all
this of the tokens of a text.
-/

namespace Bundler.Source

open Text

/-- From one text to what remains of it, all is white space and comments. A comment up to the end of
a line reaches to the end of the line. -/
inductive Skips : List Char → List Char → Prop
  | refl {text : List Char} : Skips text text
  | blank {c : Char} {later rest : List Char} : isBlank c = true → Skips later rest →
      Skips (c :: later) rest
  | lineComment {body later rest : List Char} : '\n' ∉ body → StopsAt (· ≠ '\n') later →
      Skips later rest → Skips ('/' :: '/' :: (body ++ later)) rest
  | blockComment {body later rest : List Char} : ¬ ['*', '/'] <:+: body → Skips later rest →
      Skips ('/' :: '*' :: (body ++ '*' :: '/' :: later)) rest

/-- Between the two offsets there is nothing but white space and comments. -/
structure IsGap (text : List Char) (start stop : Nat) : Prop where
  le : start ≤ stop
  skips : Skips (text.drop start) (text.drop stop)

/-- The token is what stands in the text from its start to its stop: a terminal of its kind, on the
line that it says. -/
structure Token.StandsIn (text : List Char) (token : Token) : Prop where
  start_lt_stop : token.start < token.stop
  stop_le : token.stop ≤ text.length
  text_eq : token.text.toList = (text.drop token.start).take (token.stop - token.start)
  line_eq : token.line = 1 + lineFeeds (text.take token.start)
  terminal : Terminal (some token.kind) token.text.toList
  /-- No character behind a name goes on with it. -/
  name_ends : token.kind = .name → StopsAt isNamePart (text.drop token.stop)
  /-- No character behind a number goes on with it. -/
  number_ends : token.kind = .number → StopsAt isNumberPart (text.drop token.stop)
  /-- No word begins behind a character of a name. -/
  word_begins : ∀ c ∈ token.text.toList.head?, isWord c = true →
    ∀ d ∈ (text.take token.start).getLast?, isNamePart d = false
  /-- A character is punctuation only where nothing else begins. -/
  alone : token.kind = .punctuation → ∀ kind? piece, Terminal kind? piece →
    kind? ≠ some .punctuation → ¬ piece <+: text.drop token.start

section
variable {c : Char} {chars later rest text : List Char} {kind? : Option Kind} {kind : Kind}
  {offset line start stop : Nat} {token : Token}

/-! ## Gaps -/

/-- White space or a comment in front lengthens a gap. -/
theorem Skips.of_leading (h : Leading c chars later none) (hs : Skips later rest) :
    Skips (c :: (chars ++ later)) rest := by
  cases h with
  | blank hb => exact .blank hb hs
  | lineComment hc hl => exact .lineComment (fun hline => hc _ hline rfl) hl hs
  | blockComment hc =>
    obtain ⟨body, rfl, hbody⟩ := closed_blockComment_iff.1 hc
    rw [List.cons_append, List.append_assoc]
    exact .blockComment hbody hs

/-- What is read from an offset of the text on lies in gaps, from the offset to the first token,
from each token to the next one, and from the last token to the end. -/
theorem forall₂_isGap (hd : text.drop offset = rest) (ho : offset ≤ text.length) (line : Nat) :
    List.Forall₂ (IsGap text) (offset :: (scan offset line rest).map (·.stop))
      ((scan offset line rest).map (·.start) ++ [text.length]) := by
  induction rest using reading_induction generalizing offset line with
  | nil =>
    have hend : offset = text.length := Nat.le_antisymm ho (List.drop_eq_nil_iff.1 hd)
    rw [scan_nil, hend]
    exact .cons ⟨Nat.le_refl _, .refl⟩ .nil
  | @piece c chars later kind? hp ih =>
    have hbehind := drop_behind_piece hd
    have hlength : offset + chars.length + 1 ≤ text.length := by
      have := congrArg List.length hd
      simp only [List.length_drop, List.length_cons, List.length_append] at this
      omega
    have hlater := ih hbehind hlength (line + lineFeeds (c :: chars))
    cases kind? with
    | none =>
      -- The first gap behind the piece begins at the offset as well.
      rw [hp.scan_skip]
      generalize scan (offset + chars.length + 1) (line + lineFeeds (c :: chars)) later = tokens
        at hlater
      generalize tokens.map (·.start) ++ [text.length] = starts at hlater ⊢
      cases hlater with
      | cons hgap hgaps =>
        refine .cons ⟨by have := hgap.le; omega, ?_⟩ hgaps
        have hskips := hgap.skips
        rw [hbehind] at hskips
        rw [hd]
        exact .of_leading hp hskips
    | some kind =>
      rw [hp.scan_token]
      exact .cons ⟨Nat.le_refl _, .refl⟩ hlater

/-! ## Words -/

/-- What stops whatever goes on with a run stops a run of words, if these go on with it. -/
theorem StopsAt.isWord {goesOn : Char → Bool} (h : StopsAt goesOn later)
    (hw : ∀ c, isWord c = true → goesOn c = true) : StopsAt isWord later := by
  intro c hc
  refine Bool.eq_false_iff.2 fun hword => ?_
  have hstop := h c hc
  rw [hw c hword] at hstop
  cases hstop

/-- Behind a piece that ends with a character of a name no word begins. -/
theorem Leading.stopsAt_isWord (h : Leading c chars later kind?) {last : Char}
    (hlast : last ∈ (c :: chars).getLast?) (hname : isNamePart last = true) :
    StopsAt isWord later := by
  -- A mark at the end is no character of a name.
  have hmark : ∀ (before : List Char) {mark : Char}, isNamePart mark = false →
      c :: chars = before ++ [mark] → StopsAt isWord later := by
    intro before mark hm hs
    rw [hs, List.getLast?_concat] at hlast
    cases hlast
    rw [hname] at hm
    cases hm
  cases h with
  | blank hb =>
    have hc : isNamePart c = false := by
      refine Bool.eq_false_iff.2 fun hn => ?_
      rw [isBlank_of_isNamePart hn] at hb
      cases hb
    exact hmark [] hc rfl
  | number _ _ hl => exact hl.isWord fun d hd => by simp [isNumberPart, hd]
  | name _ _ _ hl => exact hl.isWord fun d hd => by simp [isNamePart, hd]
  | string hq hc =>
    obtain ⟨body, rfl, -⟩ := (closed_string_iff hq.classes.2.2.2.1).1 hc
    exact hmark (c :: body) hq.classes.2.2.1 rfl
  | openString hq => exact hmark [] hq.classes.2.2.1 rfl
  | template hc =>
    obtain ⟨body, rfl, -⟩ := closed_template_iff.1 hc
    exact hmark (templateMark :: body) classes_templateMark.2.2.1 rfl
  | openTemplate => exact hmark [] classes_templateMark.2.2.1 rfl
  | lineComment _ hl =>
    refine hl.isWord fun d hd => decide_eq_true ?_
    rintro rfl
    revert hd
    decide +kernel
  | blockComment hc =>
    obtain ⟨body, rfl, -⟩ := closed_blockComment_iff.1 hc
    exact hmark ('/' :: '*' :: (body ++ ['*'])) classes_slash.2.2.1 (by simp)
  | openComment | slash => exact hmark [] classes_slash.2.2.1 rfl
  | mark hm => exact hmark [] hm.notNamePart rfl

/-- Where a character of a name ends what stands in front of an offset, no word begins there. -/
def NoWordGoesOn (text : List Char) (offset : Nat) : Prop :=
  ∀ d ∈ (text.take offset).getLast?, isNamePart d = true → StopsAt isWord (text.drop offset)

/-- No word goes on from the text in front of a token, if none does where the reading begins. -/
theorem noWordGoesOn_of_mem_scan (hd : text.drop offset = rest) (hfront : NoWordGoesOn text offset)
    (ht : token ∈ scan offset line rest) : NoWordGoesOn text token.start := by
  induction rest using reading_induction generalizing offset line with
  | nil => simp at ht
  | @piece c chars later kind? hp ih =>
    have hbehind := drop_behind_piece hd
    have htake : text.take (offset + chars.length + 1) = text.take offset ++ (c :: chars) := by
      rw [Nat.add_assoc, List.take_add, hd, ← List.cons_append, ← List.length_cons, List.take_left]
    have hnext : NoWordGoesOn text (offset + chars.length + 1) := by
      intro d hlast hname
      rw [htake, List.getLast?_append_of_ne_nil _ (List.cons_ne_nil c chars)] at hlast
      rw [hbehind]
      exact hp.stopsAt_isWord hlast hname
    cases kind? with
    | none =>
      rw [hp.scan_skip] at ht
      exact ih hbehind hnext ht
    | some kind =>
      rw [hp.scan_token] at ht
      rcases List.mem_cons.1 ht with rfl | ht
      · exact hfront
      · exact ih hbehind hnext ht

/-! ## Tokens -/

/-- Every token of a text stands in it. -/
theorem standsIn_of_mem_tokens {content : String} (ht : token ∈ tokens content) :
    token.StandsIn content.toList := by
  obtain ⟨before, c, chars, later, htext, hp, hchars, hstart, hstop⟩ :=
    exists_leading_of_mem_scan ht
  rw [Nat.zero_add] at hstart
  have hdrop : content.toList.drop token.start = c :: (chars ++ later) := by
    rw [htext, hstart, List.drop_left]
  have hbehind : content.toList.drop token.stop = later := by
    rw [hstop]
    exact drop_behind_piece hdrop
  have hlist : token.text.toList = c :: chars := by
    rw [hchars, String.toList_ofList]
  obtain ⟨above, below, hsplit⟩ := List.append_of_mem ht
  obtain ⟨hlt, hle⟩ : token.start < token.stop ∧ token.stop ≤ content.toList.length := by
    have := stop_le_of_mem_scan ht
    omega
  refine
    { start_lt_stop := hlt
      stop_le := hle
      text_eq := ?_
      line_eq := (scan_at hsplit).2
      terminal := hlist ▸ hp.terminal
      name_ends := ?_
      number_ends := ?_
      word_begins := ?_
      alone := ?_ }
  · have hlength : token.stop - token.start = (c :: chars).length := by
      rw [List.length_cons]
      omega
    rw [hlist, hdrop, hlength, ← List.cons_append, List.take_left]
  · intro hkind
    rw [hkind] at hp
    rw [hbehind]
    cases hp with
    | name _ _ _ hl => exact hl
  · intro hkind
    rw [hkind] at hp
    rw [hbehind]
    cases hp with
    | number _ _ hl => exact hl
  · intro d hd hword e he
    have hfirst : NoWordGoesOn content.toList token.start :=
      noWordGoesOn_of_mem_scan List.drop_zero nofun ht
    refine Bool.eq_false_iff.2 fun hname => ?_
    have hstops : StopsAt isWord (content.toList.drop token.start) := hfirst e he hname
    rw [hdrop] at hstops
    rw [hlist] at hd
    rw [hstops d hd] at hword
    cases hword
  · intro hkind kind? piece hterminal hk
    rw [hdrop]
    exact Leading.mark_alone (hkind ▸ hp) hterminal hk

end

/-- The tokens of a text stand in it one after the other, each where it says and as long as it can
be, and all that stands in front of them, between them and behind them is white space and
comments. -/
theorem tokens_cover (content : String) :
    (∀ token ∈ tokens content, token.StandsIn content.toList) ∧
    ((tokens content).Pairwise fun token next => token.stop ≤ next.start) ∧
    List.Forall₂ (IsGap content.toList) (0 :: (tokens content).map (·.stop))
      ((tokens content).map (·.start) ++ [content.length]) := by
  refine ⟨fun token ht => standsIn_of_mem_tokens ht, pairwise_scan 0 1 content.toList, ?_⟩
  rw [← String.length_toList]
  exact forall₂_isGap List.drop_zero (Nat.zero_le _) 1

end Bundler.Source
