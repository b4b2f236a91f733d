import Bundler.Proofs.Grammar
import Bundler.Proofs.Stripping

/-!
# The slices of declarations

A declaration is read the same way when the text around it is taken away. What stands in front of it
only moves its tokens (`scan_at`, `scan_shift`, `importsAmong_shift`). What stands behind it is not
looked at, since no token of a declaration opens something that could be closed there (`scan_take`),
and its clause does not go on behind its last token (`Clause.exists_slice`). So the slice of the
text that a declaration reaches over has this declaration and no other (`imports_slice`).

The slices and the gaps between them make up the text, and the gaps are what is left of it without
the declarations (`imports_slices`).
-/

namespace Bundler.Source

open Text

section
variable {c : Char} {chars later beyond text : List Char} {kind? : Option Kind} {kind : Kind}
  {offset line : Nat}
  {token last : Token} {tokens before after : List Token}

/-! ## Reading from a token on -/

/-- Read from a token on, a text has the token and what comes after it. The line of the token counts
the line feeds in front of it. -/
theorem scan_at (h : scan offset line text = before ++ token :: after) :
    scan token.start token.line (text.drop (token.start - offset)) = token :: after ∧
      token.line = line + lineFeeds (text.take (token.start - offset)) := by
  induction text using reading_induction generalizing offset line before with
  | nil => simp at h
  | @piece c chars later kind? hp ih =>
    have hlater : ∀ {before : List Token}, scan (offset + chars.length + 1)
          (line + lineFeeds (c :: chars)) later = before ++ token :: after →
        scan token.start token.line ((c :: (chars ++ later)).drop (token.start - offset)) =
            token :: after ∧
          token.line = line + lineFeeds ((c :: (chars ++ later)).take (token.start - offset)) := by
      intro before hs
      have hmem : token ∈ scan (offset + chars.length + 1) (line + lineFeeds (c :: chars))
          later := by simp [hs]
      have hle := (start_le_of_mem_scan hmem).1
      obtain ⟨hscan, hline⟩ := ih hs
      have hsplit : token.start - offset =
          (c :: chars).length + (token.start - (offset + chars.length + 1)) := by
        rw [List.length_cons]
        omega
      rw [hsplit, ← List.cons_append, ← List.drop_drop, List.drop_left, List.take_length_add_append,
        lineFeeds, List.count_append, ← Nat.add_assoc]
      exact ⟨hscan, hline⟩
    cases kind? with
    | none =>
      rw [hp.scan_skip] at h
      exact hlater h
    | some kind =>
      have hfirst : scan offset line (c :: (chars ++ later)) = _ := hp.scan_token
      cases before with
      | nil =>
        obtain ⟨rfl, -⟩ := List.cons.inj (hfirst.symm.trans h)
        dsimp only
        rw [Nat.sub_self]
        exact ⟨h, rfl⟩
      | cons first before => exact hlater (List.cons.inj (hfirst.symm.trans h)).2

/-! ## Moving a text -/

/-- The token when the text in front of it has so many more characters and lines. -/
def Token.shift (chars lines : Nat) (token : Token) : Token :=
  { token with
    start := token.start + chars, stop := token.stop + chars, line := token.line + lines }

/-- The declaration of such tokens. -/
def Import.shift (chars lines : Nat) (declaration : Import) : Import :=
  { declaration with
    start := declaration.start + chars, stop := declaration.stop + chars,
    line := declaration.line + lines }

variable {n m : Nat} {afterDot bound : Bool}

/-- A declaration that has moved by as much as it stands behind the start of the text now has stood
at the start. -/
theorem Import.eq_of_shift {found : Import} (declaration : Import)
    (h : found.shift declaration.start m = declaration) (hline : declaration.line = 1 + m) :
    found = ⟨declaration.specifier, 0, declaration.stop - declaration.start, 1⟩ := by
  obtain ⟨specifier, start, stop, line⟩ := found
  obtain ⟨name, first, last, number⟩ := declaration
  obtain ⟨rfl, hstart, hstop, hnumber⟩ := Import.mk.inj h
  dsimp only at hstart hstop hnumber hline
  have hzero : start = 0 := by omega
  have hspan : stop = last - first := by omega
  have hone : line = 1 := by omega
  rw [hzero, hspan, hone]

/-- The tokens move with the text. -/
theorem scan_shift (offset line : Nat) (text : List Char) :
    scan (offset + n) (line + m) text = (scan offset line text).map (.shift n m) := by
  induction text using reading_induction generalizing offset line with
  | nil => simp
  | @piece c chars later kind? hp ih =>
    have hoffset : offset + n + chars.length + 1 = offset + chars.length + 1 + n := by omega
    have hline : line + m + lineFeeds (c :: chars) = line + lineFeeds (c :: chars) + m := by omega
    cases kind? with
    | none => rw [hp.scan_skip, hp.scan_skip, hoffset, hline, ih]
    | some kind =>
      rw [hp.scan_token, hp.scan_token, hoffset, hline, ih, List.map_cons]
      rfl

/-- The clause when each of its tokens is replaced by another one. -/
def Clause.map (move : Token → Token) (clause : Clause) : Clause :=
  { clause with source := move clause.source, last := move clause.last }

section
variable {move : Token → Token}

/-- The end of a clause moves with its tokens, if these keep their lexemes. -/
theorem Clause.closing_map (hm : ∀ token, (move token).lexeme = token.lexeme) (k : Nat)
    (source : Token) (after : List Token) :
    closing k (move source) (after.map move) = (closing k source after).map move := by
  cases after with
  | nil => rfl
  | cons next more =>
    obtain ⟨hkind, htext, -⟩ := Token.congr_of_lexeme (hm next)
    have hmark : (move next).isMark ";" = next.isMark ";" := by simp [Token.isMark, hkind, htext]
    rw [List.map_cons, closing, closing, hmark]
    split <;> rfl

/-- So does the end of a declaration. -/
theorem Clause.ending?_map (hm : ∀ token, (move token).lexeme = token.lexeme) :
    Clause.ending? (tokens.map move) = (Clause.ending? tokens).map (.map move) := by
  match tokens with
  | [] | [_] => rfl
  | word :: source :: rest =>
    obtain ⟨-, -, -, hname⟩ := Token.congr_of_lexeme (hm word)
    rw [List.map_cons, List.map_cons, ending?_cons_cons, ending?_cons_cons, hname,
      (Token.congr_of_lexeme (hm source)).1]
    split
    · rw [closing_map hm, Option.map_some]
    · rfl

/-- A clause moves with its tokens. -/
theorem Clause.read?_map (hm : ∀ token, (move token).lexeme = token.lexeme) :
    Clause.read? bound (tokens.map move) = (Clause.read? bound tokens).map (.map move) := by
  induction tokens generalizing bound with
  | nil => rfl
  | cons token rest ih =>
    have hending :
        (if bound = true then Clause.ending? ((token :: rest).map move) else none) =
          (if bound = true then Clause.ending? (token :: rest) else none).map (.map move) := by
      rw [Clause.ending?_map hm]
      split <;> rfl
    rw [List.map_cons] at hending ⊢
    rw [read?, read?, hending, (Token.congr_of_lexeme (hm token)).2.2.1, ih]
    cases (if bound = true then Clause.ending? (token :: rest) else none) with
    | some ending => rfl
    | none =>
      dsimp only [Option.map_none]
      split
      · rw [Option.map_map, Option.map_map]
        rfl
      · rfl

/-- Declarations move with their tokens. What becomes of a declaration is said by `image`. -/
theorem importsAmong_map (move : Token → Token) (image : Import → Import)
    (hm : ∀ token, (move token).lexeme = token.lexeme)
    (hi : ∀ (clause : Clause) (first : Token),
      (clause.map move).toImport (move first) = image (clause.toImport first))
    (afterDot : Bool) (tokens : List Token) :
    importsAmong afterDot (tokens.map move) = (importsAmong afterDot tokens).map image := by
  induction afterDot, tokens using declaration_induction with
  | nil afterDot => simp
  | declaration token rest clause hn hr ih =>
    have hr' : Clause.read? false (rest.map move) = some (clause.map move) := by
      rw [Clause.read?_map hm, hr, Option.map_some]
    have hn' : (move token).isName "import" = true := by
      rw [(Token.congr_of_lexeme (hm token)).2.2.2, hn]
    rw [List.map_cons, importsAmong_declaration hn' hr', importsAmong_declaration hn hr,
      List.map_cons, ← ih, List.map_drop, hi]
    rfl
  | stays afterDot token rest hs ih =>
    obtain ⟨-, htext, -, hname⟩ := Token.congr_of_lexeme (hm token)
    have hs' : (move token).Stays afterDot (rest.map move) := by
      intro hn hd
      rw [Clause.read?_map hm, hs (hname _ ▸ hn) hd]
      rfl
    rw [List.map_cons, importsAmong_stays hs', importsAmong_stays hs, ← ih, htext]

end

/-- Declarations move with the text. -/
theorem importsAmong_shift (afterDot : Bool) (tokens : List Token) :
    importsAmong afterDot (tokens.map (.shift n m)) =
      (importsAmong afterDot tokens).map (.shift n m) :=
  importsAmong_map (.shift n m) (.shift n m) (fun _ => rfl) (fun _ _ => rfl) afterDot tokens

/-! ## The end of a slice -/

/-- A token that a declaration can have behind its `import`: a binding, a string or a semicolon. -/
def Token.isInner (token : Token) : Bool :=
  token.isBinding || token.kind = .string || token.isMark ";"

/-- Such a token is no number and no template, and no mark that opens something. -/
theorem Token.isInner_lexeme (h : token.isInner = true)
    (hl : token.lexeme = (kind, String.ofList (c :: chars))) :
    kind = .name ∨ kind = .string ∨
      kind = .punctuation ∧ ¬ IsQuote c ∧ c ≠ templateMark ∧ c ≠ '/' := by
  obtain ⟨rfl, htext⟩ := Prod.mk.inj hl
  cases hk : token.kind with
  | name => exact .inl rfl
  | string => exact .inr (.inl rfl)
  | number | template => simp [isInner, isBinding, isMark, hk] at h
  | punctuation =>
    have hmark : token.text ∈ ["\x7b", "\x7d", ",", "*", ";"] := by
      simpa [isInner, isBinding, isMark, hk, or_assoc] using h
    have hfirst : token.text.toList.head? = some c := by
      rw [htext, String.toList_ofList]
      rfl
    simp only [List.mem_cons, List.not_mem_nil, or_false] at hmark
    have hopens : ¬ IsQuote c ∧ c ≠ templateMark ∧ c ≠ '/' := by
      rcases hmark with hm | hm | hm | hm | hm <;>
      · simp only [hm, String.reduceToList, List.head?_cons, Option.some.injEq] at hfirst
        simp [IsQuote, templateMark, ← hfirst]
    exact .inr (.inr ⟨rfl, hopens⟩)

/-- What stops a run in a text stops it at the end of its beginning. -/
theorem StopsAt.of_append {goesOn : Char → Bool} (h : StopsAt goesOn (later ++ beyond)) :
    StopsAt goesOn later := by
  cases later with
  | nil => rintro d ⟨⟩
  | cons d rest => exact h

/-- The first piece of a text stays what it is when the text ends behind it, or anywhere later, if
it is no piece that looks ahead. -/
theorem Leading.of_append (h : Leading c chars (later ++ beyond) kind?)
    (hk : ∀ kind, kind? = some kind → ∃ token : Token, token.isInner = true ∧
      token.lexeme = (kind, String.ofList (c :: chars))) :
    Leading c chars later kind? := by
  have hplain : ∀ kind, kind? = some kind → kind = .name ∨ kind = .string ∨
      kind = .punctuation ∧ ¬ IsQuote c ∧ c ≠ templateMark ∧ c ≠ '/' := by
    intro kind hs
    obtain ⟨token, hi, hl⟩ := hk kind hs
    exact token.isInner_lexeme hi hl
  generalize hbehind : later ++ beyond = behind at h
  cases h with
  | blank hb => exact .blank hb
  | number => simpa using hplain _ rfl
  | name hd hn hc hl => exact .name hd hn hc (hbehind ▸ hl).of_append
  | string hq hc => exact .string hq hc
  | openString hq => simpa [hq] using hplain _ rfl
  | template => simpa using hplain _ rfl
  | openTemplate => simpa using hplain _ rfl
  | lineComment hc hl => exact .lineComment hc (hbehind ▸ hl).of_append
  | blockComment hc => exact .blockComment hc
  | openComment | slash => simpa using hplain _ rfl
  | mark hm => exact .mark hm

/-- Up to the end of a token, a text has the tokens up to this one, if none of them looks ahead. -/
theorem scan_take (h : scan offset line text = before ++ last :: after)
    (hi : ∀ token ∈ before ++ [last], token.isInner = true) :
    scan offset line (text.take (last.stop - offset)) = before ++ [last] := by
  induction text using reading_induction generalizing offset line before with
  | nil => simp at h
  | @piece c chars later kind? hp ih =>
    have htake : ∀ {n}, (c :: (chars ++ later)).take (chars.length + 1 + n) =
        c :: (chars ++ later.take n) := by
      intro n
      rw [← List.cons_append, ← List.length_cons, List.take_length_add_append, List.cons_append]
    have hlater : ∀ {line' : Nat} {before : List Token},
        scan (offset + chars.length + 1) line' later = before ++ last :: after →
        last.stop - offset = chars.length + 1 + (last.stop - (offset + chars.length + 1)) := by
      intro line' before hs
      have hmem : last ∈ scan (offset + chars.length + 1) line' later := by simp [hs]
      have := start_le_of_mem_scan hmem
      omega
    have hkept : ∀ n, (∀ kind, kind? = some kind → ∃ token : Token, token.isInner = true ∧
        token.lexeme = (kind, String.ofList (c :: chars))) → Leading c chars (later.take n) kind? :=
      fun n hk => Leading.of_append ((List.take_append_drop n later).symm ▸ hp) hk
    cases kind? with
    | none =>
      rw [hp.scan_skip] at h
      rw [hlater h, htake, (hkept _ nofun).scan_skip]
      exact ih h hi
    | some kind =>
      rw [hp.scan_token] at h
      cases before with
      | nil =>
        obtain ⟨rfl, -⟩ := List.cons.inj h
        have hlead := hkept 0 (by rintro _ ⟨⟩; exact ⟨_, hi _ List.mem_cons_self, rfl⟩)
        have hstop : offset + chars.length + 1 - offset = chars.length + 1 + 0 := by omega
        rw [hstop, htake, hlead.scan_token, List.take_zero, scan_nil]
        rfl
      | cons first before =>
        obtain ⟨rfl, hrest⟩ := List.cons.inj h
        rw [List.cons_append, List.forall_mem_cons] at hi
        have hlead := hkept (last.stop - (offset + chars.length + 1))
          (by rintro _ ⟨⟩; exact ⟨_, hi.1, rfl⟩)
        rw [hlater hrest, htake, hlead.scan_token, ih hrest hi.2, List.cons_append]

/-! ## Slices -/

/-- The text that the declaration reaches over. -/
def Import.slice (content : String) (declaration : Import) : String :=
  String.ofList
    ((content.toList.drop declaration.start).take (declaration.stop - declaration.start))

/-- A declaration is made of a token and the clause behind it. -/
theorem exists_clause_of_mem_importsAmong {declaration : Import}
    (h : declaration ∈ importsAmong afterDot tokens) : ∃ before first rest clause,
      tokens = before ++ first :: rest ∧ first.isName "import" = true ∧
      Clause.read? false rest = some clause ∧ declaration = clause.toImport first := by
  induction afterDot, tokens using declaration_induction with
  | nil afterDot => simp at h
  | declaration token rest clause hn hr ih =>
    rw [importsAmong_declaration hn hr] at h
    rcases List.mem_cons.1 h with rfl | h
    · exact ⟨[], token, rest, clause, rfl, hn, hr, rfl⟩
    · obtain ⟨before, first, others, inside, hs, hfound⟩ := ih h
      refine ⟨token :: (rest.take clause.length ++ before), first, others, inside, ?_, hfound⟩
      rw [List.cons_append, List.append_assoc, ← hs, List.take_append_drop]
  | stays afterDot token rest hs ih =>
    rw [importsAmong_stays hs] at h
    obtain ⟨before, first, others, inside, rfl, hfound⟩ := ih h
    exact ⟨token :: before, first, others, inside, rfl, hfound⟩

/-- A clause can be read from its own tokens alone, and none of them looks ahead. -/
theorem Clause.exists_slice (h : Clause.read? bound tokens = some clause) : ∃ before after,
    tokens = before ++ clause.last :: after ∧ clause.length = (before ++ [clause.last]).length ∧
    (∀ token ∈ before ++ [clause.last], token.isInner = true) ∧
      Clause.read? bound (before ++ [clause.last]) = some clause := by
  obtain ⟨inner, word, source, after, hp, hbound, rfl⟩ := Clause.read?_eq_some_iff.1 h
  have hinner : ∀ token ∈ inner ++ [word, source], token.isInner = true := by
    intro token ht
    rcases List.mem_append.1 ht with ht | ht
    · simp [Token.isInner, hp.isBinding token ht]
    rcases List.mem_cons.1 ht with rfl | ht
    · simp [Token.isInner, Token.isBinding_of_isName hp.isFrom]
    · simp [Token.isInner, List.mem_singleton.1 ht, hp.isString]
  have hread : ∀ more, closing inner.length source more = closing inner.length source after →
      Clause.read? bound (inner ++ word :: source :: more) =
        some (closing inner.length source after) := fun more hc =>
    Clause.read?_eq_some_iff.2 ⟨inner, word, source, more,
      ⟨rfl, hp.isBinding, hp.isFrom, hp.isString⟩, hbound, hc.symm⟩
  by_cases hm : ∃ next ∈ after.head?, next.isMark ";" = true
  · obtain ⟨next, hn, hm⟩ := hm
    obtain ⟨more, rfl⟩ := List.head?_eq_some_iff.1 hn
    have hclause : ∀ more, closing inner.length source (next :: more) =
        ⟨source, next, inner.length + 3⟩ := fun more => if_pos hm
    rw [hclause] at hread ⊢
    refine ⟨inner ++ [word, source], more, by simp [hp.tokens_eq], by simp, ?_, ?_⟩
    · refine List.forall_mem_append.2 ⟨hinner, List.forall_mem_singleton.2 ?_⟩
      simp [Token.isInner, hm]
    · rw [List.append_assoc]
      exact hread [next] (hclause [])
  · have hclause : closing inner.length source after = ⟨source, source, inner.length + 2⟩ := by
      cases after with
      | nil => rfl
      | cons next more => exact if_neg fun hn => hm ⟨next, rfl, hn⟩
    rw [hclause] at hread ⊢
    refine ⟨inner ++ [word], after, by simp [hp.tokens_eq], by simp, ?_, ?_⟩
    · rwa [List.append_assoc]
    · rw [List.append_assoc]
      exact hread [] rfl

/-- The slice of a declaration has this declaration and no other. -/
theorem imports_slice {content : String} {declaration : Import}
    (h : declaration ∈ imports content) :
    declaration.stop ≤ content.length ∧
    declaration.line = 1 + lineFeeds (content.toList.take declaration.start) ∧
    imports (declaration.slice content) =
      [⟨declaration.specifier, 0, declaration.stop - declaration.start, 1⟩] := by
  obtain ⟨before, first, rest, clause, hs, hn, hr, rfl⟩ := exists_clause_of_mem_importsAmong h
  obtain ⟨front, after, hrest, hlength, hinner, hread⟩ := Clause.exists_slice hr
  obtain ⟨hscan, hline⟩ := scan_at hs
  rw [Nat.sub_zero] at hscan hline
  have hlast : clause.last ∈ tokens content := by
    rw [hs, hrest]
    simp
  have hfits : clause.last.stop ≤ content.length := by
    rw [← String.length_toList, ← Nat.zero_add content.toList.length]
    exact stop_le_of_mem_scan hlast
  refine ⟨hfits, hline, ?_⟩
  have hinside : ∀ token ∈ first :: front ++ [clause.last], token.isInner = true :=
    List.forall_mem_cons.2 ⟨by simp [Token.isInner, Token.isBinding_of_isName hn], hinner⟩
  rw [hrest, ← List.cons_append] at hscan
  -- The tokens of the slice are those of the declaration, moved to the front.
  have htokens : (tokens ((clause.toImport first).slice content)).map
      (.shift first.start (lineFeeds (content.toList.take first.start))) =
        first :: (front ++ [clause.last]) := by
    rw [tokens, ← scan_shift, Nat.zero_add, ← hline, Import.slice, String.toList_ofList]
    exact scan_take hscan hinside
  have himports : (imports ((clause.toImport first).slice content)).map
      (.shift first.start (lineFeeds (content.toList.take first.start))) =
        [clause.toImport first] := by
    rw [imports, ← importsAmong_shift, htokens, importsAmong_declaration hn hread, hlength,
      List.drop_length, importsAmong_nil]
  obtain ⟨found, hfound, hshift⟩ := List.map_eq_singleton_iff.1 himports
  rw [hfound, Import.eq_of_shift (clause.toImport first) hshift hline]

/-! ## What is cut out and what is left -/

/-- The texts in front of the declarations and behind the last one, from the offset on. -/
def gaps (content : List Char) (offset : Nat) : List Import → List (List Char)
  | [] => [content.drop offset]
  | declaration :: rest =>
    (content.drop offset).take (declaration.start - offset) :: gaps content declaration.stop rest

/-- The gaps are what is left when the declarations are cut out. -/
theorem flatten_gaps (content : List Char) (offset : Nat) (declarations : List Import) :
    (gaps content offset declarations).flatten = cut content offset declarations := by
  induction declarations generalizing offset with
  | nil => simp [gaps, cut]
  | cons declaration rest ih => rw [gaps, cut, List.flatten_cons, ih]

/-- The gaps with the slices of the declarations between them are the text. -/
theorem flatten_gaps_slices {content : String} {declarations : List Import}
    (h : Spaced offset declarations) :
    (List.zipWith (· ++ ·) (gaps content.toList offset declarations)
      (declarations.map (fun declaration => (declaration.slice content).toList) ++ [[]])).flatten =
        content.toList.drop offset := by
  induction declarations generalizing offset with
  | nil => simp [gaps]
  | cons declaration rest ih =>
    obtain ⟨hstart, hstop, hrest⟩ := h
    rw [gaps, List.map_cons, List.cons_append, List.zipWith_cons_cons, List.flatten_cons, ih hrest,
      Import.slice, String.toList_ofList, List.append_assoc,
      ← drop_eq_take_append _ (Nat.le_of_lt hstop), ← drop_eq_take_append _ hstart]

/-- Declarations that stand one after the other do not overlap. -/
theorem Spaced.pairwise {declarations : List Import} (h : Spaced offset declarations) :
    declarations.Pairwise fun declaration next => declaration.stop ≤ next.start := by
  induction declarations generalizing offset with
  | nil => exact .nil
  | cons declaration rest ih =>
    obtain ⟨-, -, hrest⟩ := h
    exact List.pairwise_cons.2 ⟨fun next hn => hrest.le_start next hn, ih hrest⟩

/-- None of them is empty. -/
theorem Spaced.start_lt_stop {declarations : List Import} (h : Spaced offset declarations) :
    ∀ declaration ∈ declarations, declaration.start < declaration.stop := by
  induction declarations generalizing offset with
  | nil => nofun
  | cons first rest ih => exact List.forall_mem_cons.2 ⟨h.2.1, ih h.2.2⟩

end

/-- The declarations of a text stand in it one after the other, each with the line that it starts on
in the text, and the slice of a declaration, read on its own, is this declaration and nothing else.
What is left when they are cut out are the gaps, which make up the text with the slices between
them. -/
theorem imports_slices (content : String) :
    (∀ declaration ∈ imports content,
      declaration.start < declaration.stop ∧ declaration.stop ≤ content.length ∧
      declaration.line = 1 + lineFeeds (content.toList.take declaration.start) ∧
      imports (declaration.slice content) =
        [⟨declaration.specifier, 0, declaration.stop - declaration.start, 1⟩]) ∧
    ((imports content).Pairwise fun declaration next => declaration.stop ≤ next.start) ∧
    (withoutImports content).toList = trim (gaps content.toList 0 (imports content)).flatten ∧
    (List.zipWith (· ++ ·) (gaps content.toList 0 (imports content))
      ((imports content).map (fun declaration => (declaration.slice content).toList) ++
        [[]])).flatten = content.toList := by
  have hspaced : Spaced 0 (imports content) := spaced_importsAmong (ordered_scan 0 1 content.toList)
  refine ⟨fun declaration hd => ⟨hspaced.start_lt_stop declaration hd, imports_slice hd⟩,
    hspaced.pairwise, ?_, flatten_gaps_slices hspaced⟩
  rw [flatten_gaps, withoutImports, without, String.toList_ofList]

end Bundler.Source
