import Bundler.Proofs.Reading
import Bundler.Source.Import

/-!
# Declarations among tokens

What the scan for declarations leaves (`remaining`) has no declaration in it
(`importsAmong_remaining`). The reason is that an `import` that starts no declaration is followed by
a token that no declaration has in its place, and this token is not cut out either
(`Clause.read?_remaining`). Whether there are declarations depends on the lexemes alone
(`importsAmong_eq_nil_of_lexemes`).

Where the tokens stand in order, so do the declarations (`spaced_importsAmong`), and the tokens
outside them are those that are left (`filter_covers`).
-/

namespace Bundler.Source

/-- The tokens that are in none of the declarations. -/
def remaining (afterDot : Bool) : List Token → List Token
  | [] => []
  | token :: rest =>
    match if token.isName "import" && !afterDot then Clause.read? false rest else none with
    | some clause => remaining false (rest.drop clause.length)
    | none => token :: remaining (token.text = ".") rest
termination_by tokens => tokens.length

section
variable {afterDot bound : Bool} {token : Token} {tokens rest others : List Token} {clause : Clause}

/-! ## Reading a declaration -/

/-- The end of a declaration is `from`, a string, and a semicolon if one follows. -/
theorem Clause.ending?_eq (word source : Token) (rest : List Token) :
    Clause.ending? (word :: source :: rest) =
      if word.isName "from" = true ∧ source.kind = .string then
        if ∃ next ∈ rest.head?, next.isMark ";" = true then
          rest.head?.map fun next => ⟨source, next, 3⟩
        else some ⟨source, source, 2⟩
      else none := by
  cases rest with
  | nil => simp [Clause.ending?]
  | cons next more => simp [Clause.ending?]

/-- A declaration ends with a string, or with a semicolon behind it. -/
theorem Clause.exists_of_ending? (h : Clause.ending? tokens = some clause) :
    ∃ before, tokens = before ++ clause.last :: tokens.drop clause.length ∧
      clause.length = before.length + 1 ∧
      (clause.last.kind = .string ∨ clause.last.isMark ";" = true) := by
  match tokens with
  | [] | [_] => simp [ending?] at h
  | word :: source :: rest =>
    rw [Clause.ending?_eq] at h
    split at h
    · next hword =>
      split at h
      · next hmark =>
        obtain ⟨next, hn, hm⟩ := hmark
        obtain ⟨more, rfl⟩ := List.head?_eq_some_iff.1 hn
        cases h
        exact ⟨[word, source], rfl, rfl, .inr hm⟩
      · cases h
        exact ⟨[word], rfl, rfl, .inl hword.2⟩
    · cases h

/-- Whether a declaration ends depends on the first two tokens. -/
theorem Clause.ending?_eq_none_iff : Clause.ending? (token :: rest) = none ↔
    (token.isName "from" = true → ∀ next ∈ rest.head?, next.kind ≠ .string) := by
  cases rest with
  | nil => simp [Clause.ending?]
  | cons source more =>
    rw [Clause.ending?_eq]
    split
    · next hword =>
      refine iff_of_false (fun h => ?_) fun h => h hword.1 source rfl hword.2
      split at h
      · next hmark =>
        obtain ⟨next, hn, -⟩ := hmark
        rw [Option.map_eq_none_iff.1 h] at hn
        cases hn
      · cases h
    · next hword =>
      refine iff_of_true rfl fun hfrom next hn hstring => hword ⟨hfrom, ?_⟩
      cases hn
      exact hstring

/-- What follows an `import` is no declaration exactly if it does not end one, and the binding in
front is not followed by the rest of one. -/
theorem Clause.read?_cons_eq_none_iff : Clause.read? bound (token :: rest) = none ↔
    (bound = true → Clause.ending? (token :: rest) = none) ∧
      (token.isBinding = true → Clause.read? true rest = none) := by
  rw [Clause.read?]
  cases bound with
  | false =>
    by_cases hb : token.isBinding = true <;> simp [hb]
  | true =>
    cases he : Clause.ending? (token :: rest) with
    | some clause => simp
    | none => by_cases hb : token.isBinding = true <;> simp [hb]

/-- The last token of a declaration is the one that its length leads to. -/
theorem Clause.exists_of_read? (h : Clause.read? bound tokens = some clause) :
    ∃ before, tokens = before ++ clause.last :: tokens.drop clause.length ∧
      clause.length = before.length + 1 ∧
      (clause.last.kind = .string ∨ clause.last.isMark ";" = true) := by
  induction tokens generalizing bound clause with
  | nil => simp [Clause.read?] at h
  | cons token rest ih =>
    rw [Clause.read?] at h
    split at h
    · next ending he =>
      cases h
      split at he
      · exact Clause.exists_of_ending? he
      · cases he
    · split at h
      · obtain ⟨inner, hr, rfl⟩ := Option.map_eq_some_iff.1 h
        obtain ⟨before, hs, hl, hlast⟩ := ih hr
        refine ⟨token :: before, ?_, by simp [hl], hlast⟩
        dsimp only
        rw [List.drop_succ_cons, List.cons_append, ← hs]
      · cases h

/-- A binding in front does not hurt. -/
theorem Clause.read?_false_of_true (h : Clause.read? true rest = none) :
    Clause.read? false rest = none := by
  cases rest with
  | nil => exact h
  | cons token rest =>
    exact Clause.read?_cons_eq_none_iff.2 ⟨nofun, (Clause.read?_cons_eq_none_iff.1 h).2⟩

/-- A name has its kind and its text. -/
theorem Token.of_isName {text : String} (h : token.isName text = true) :
    token.kind = .name ∧ token.text = text := by
  simpa [Token.isName] using h

/-- So has a mark. -/
theorem Token.of_isMark {text : String} (h : token.isMark text = true) :
    token.kind = .punctuation ∧ token.text = text := by
  simpa [Token.isMark] using h

/-- A name is a binding. -/
theorem Token.isBinding_of_isName {text : String} (h : token.isName text = true) :
    token.isBinding = true := by
  simp [Token.isBinding, (Token.of_isName h).1]

/-! ## Declarations and what is left -/

/-- The first token starts no declaration. -/
def Token.Stays (token : Token) (afterDot : Bool) (rest : List Token) : Prop :=
  token.isName "import" = true → afterDot = false → Clause.read? false rest = none

/-- The tokens that are looked at for a declaration at the front. -/
theorem Token.Stays.look (h : token.Stays afterDot rest) :
    (if token.isName "import" && !afterDot then Clause.read? false rest else none) = none := by
  split
  · next hboth =>
    have := Bool.and_eq_true_iff.1 hboth
    exact h this.1 (by simpa using this.2)
  · rfl

@[simp] theorem importsAmong_nil : importsAmong afterDot [] = [] := by
  rw [importsAmong]

@[simp] theorem remaining_nil : remaining afterDot [] = [] := by
  rw [remaining]

/-- A declaration is found, and the scan goes on behind it. -/
theorem importsAmong_declaration (hn : token.isName "import" = true)
    (hr : Clause.read? false rest = some clause) : importsAmong false (token :: rest) =
      clause.toImport token :: importsAmong false (rest.drop clause.length) := by
  rw [importsAmong]
  simp [hn, hr]

/-- Without a declaration at the front the scan goes on with the next token. -/
theorem importsAmong_stays (h : token.Stays afterDot rest) :
    importsAmong afterDot (token :: rest) = importsAmong (token.text = ".") rest := by
  rw [importsAmong, h.look]

/-- A declaration is left out. -/
theorem remaining_declaration (hn : token.isName "import" = true)
    (hr : Clause.read? false rest = some clause) :
    remaining false (token :: rest) = remaining false (rest.drop clause.length) := by
  rw [remaining]
  simp [hn, hr]

/-- Another token is left. -/
theorem remaining_stays (h : token.Stays afterDot rest) :
    remaining afterDot (token :: rest) = token :: remaining (token.text = ".") rest := by
  rw [remaining, h.look]

/-- Induction along the scan for declarations. -/
@[elab_as_elim]
theorem declaration_induction {motive : Bool → List Token → Prop}
    (nil : ∀ afterDot, motive afterDot [])
    (declaration : ∀ token rest clause, token.isName "import" = true →
      Clause.read? false rest = some clause → motive false (rest.drop clause.length) →
      motive false (token :: rest))
    (stays : ∀ afterDot token rest, token.Stays afterDot rest →
      motive (token.text = ".") rest → motive afterDot (token :: rest))
    (afterDot : Bool) (tokens : List Token) : motive afterDot tokens := by
  induction hn : tokens.length using Nat.strongRecOn generalizing afterDot tokens with
  | ind n ih =>
    cases tokens with
    | nil => exact nil afterDot
    | cons token rest =>
      rw [List.length_cons] at hn
      by_cases hs : token.Stays afterDot rest
      · exact stays afterDot token rest hs (ih rest.length (by omega) _ _ rfl)
      · simp only [Token.Stays, Classical.not_imp] at hs
        obtain ⟨hname, rfl, hr⟩ := hs
        obtain ⟨clause, hc⟩ := Option.ne_none_iff_exists'.1 hr
        have hlength : (rest.drop clause.length).length < n := by
          rw [List.length_drop]
          omega
        exact declaration token rest clause hname hc (ih _ hlength _ _ rfl)

/-- Where no declaration can be read, the first token stays. -/
theorem Token.stays_of_read? (h : Clause.read? bound (token :: rest) = none) :
    token.Stays afterDot rest := fun hn _ =>
  Clause.read?_false_of_true
    ((Clause.read?_cons_eq_none_iff.1 h).2 (Token.isBinding_of_isName hn))

/-- What is no declaration does not become one when the declarations behind it are left out. -/
theorem Clause.read?_remaining (h : Clause.read? bound tokens = none) :
    Clause.read? bound (remaining afterDot tokens) = none := by
  induction tokens generalizing bound afterDot with
  | nil => rwa [remaining_nil]
  | cons token rest ih =>
    rw [remaining_stays (Token.stays_of_read? h), Clause.read?_cons_eq_none_iff]
    obtain ⟨hending, hbinding⟩ := Clause.read?_cons_eq_none_iff.1 h
    refine ⟨fun hb => ?_, fun hb => ih (hbinding hb)⟩
    have hend := Clause.ending?_eq_none_iff.1 (hending hb)
    rw [Clause.ending?_eq_none_iff]
    intro hfrom next hn
    -- Behind `from` nothing is a declaration, so the next token is the one that was there.
    have hrest := hbinding (Token.isBinding_of_isName hfrom)
    cases rest with
    | nil =>
      rw [remaining_nil] at hn
      cases hn
    | cons source more =>
      rw [remaining_stays (Token.stays_of_read? hrest)] at hn
      exact hend hfrom next hn

/-- What is left of the tokens has no declarations. -/
theorem importsAmong_remaining (afterDot : Bool) (tokens : List Token) :
    importsAmong afterDot (remaining afterDot tokens) = [] := by
  induction afterDot, tokens using declaration_induction with
  | nil afterDot => simp
  | declaration token rest clause hn hr ih => rwa [remaining_declaration hn hr]
  | stays afterDot token rest hs ih =>
    have hstays : token.Stays afterDot (remaining (token.text = ".") rest) :=
      fun hn hd => Clause.read?_remaining (hs hn hd)
    rw [remaining_stays hs, importsAmong_stays hstays, ih]

/-! ## What the lexemes decide -/

/-- Tokens with the same lexeme are the same names, marks and bindings. -/
theorem Token.congr_of_lexeme {other : Token} (h : token.lexeme = other.lexeme) :
    token.kind = other.kind ∧ token.text = other.text ∧ token.isBinding = other.isBinding ∧
      ∀ text, token.isName text = other.isName text := by
  obtain ⟨hkind, htext⟩ := Prod.mk.inj h
  simp [Token.isBinding, Token.isName, hkind, htext]

/-- Whether a declaration can be read depends on the lexemes. -/
theorem Clause.read?_eq_none_of_lexemes (h : tokens.map Token.lexeme = others.map Token.lexeme)
    (hn : Clause.read? bound tokens = none) : Clause.read? bound others = none := by
  induction tokens generalizing bound others with
  | nil => rwa [List.map_eq_nil_iff.1 h.symm]
  | cons token rest ih =>
    obtain ⟨other, more, rfl, hother, hmore⟩ := List.map_eq_cons_iff.1 h.symm
    obtain ⟨-, -, hbinding, hname⟩ := Token.congr_of_lexeme hother
    obtain ⟨hending, hrest⟩ := Clause.read?_cons_eq_none_iff.1 hn
    refine Clause.read?_cons_eq_none_iff.2
      ⟨fun hb => Clause.ending?_eq_none_iff.2 fun hfrom next hnext hstring => ?_,
        fun hb => ih hmore.symm (hrest (hbinding ▸ hb))⟩
    obtain ⟨after, rfl⟩ := List.head?_eq_some_iff.1 hnext
    obtain ⟨source, before, rfl, hsource, -⟩ := List.map_eq_cons_iff.1 hmore.symm
    refine Clause.ending?_eq_none_iff.1 (hending hb) (hname _ ▸ hfrom) source rfl ?_
    rw [(Token.congr_of_lexeme hsource).1, hstring]

/-- There is no declaration exactly if the first token stays and none follows. -/
theorem importsAmong_cons_eq_nil_iff : importsAmong afterDot (token :: rest) = [] ↔
    token.Stays afterDot rest ∧ importsAmong (token.text = ".") rest = [] := by
  by_cases hs : token.Stays afterDot rest
  · rw [importsAmong_stays hs, and_iff_right hs]
  · refine iff_of_false (fun h => ?_) fun h => hs h.1
    simp only [Token.Stays, Classical.not_imp] at hs
    obtain ⟨hname, rfl, hr⟩ := hs
    obtain ⟨clause, hc⟩ := Option.ne_none_iff_exists'.1 hr
    rw [importsAmong_declaration hname hc] at h
    cases h

/-- Whether there are declarations depends on the lexemes. -/
theorem importsAmong_eq_nil_of_lexemes (h : tokens.map Token.lexeme = others.map Token.lexeme)
    (hn : importsAmong afterDot tokens = []) : importsAmong afterDot others = [] := by
  induction tokens generalizing afterDot others with
  | nil => rwa [List.map_eq_nil_iff.1 h.symm]
  | cons token rest ih =>
    obtain ⟨other, more, rfl, hother, hmore⟩ := List.map_eq_cons_iff.1 h.symm
    obtain ⟨-, htext, -, hname⟩ := Token.congr_of_lexeme hother
    obtain ⟨hstays, hrest⟩ := importsAmong_cons_eq_nil_iff.1 hn
    refine importsAmong_cons_eq_nil_iff.2 ⟨fun hi hd => ?_, ?_⟩
    · exact Clause.read?_eq_none_of_lexemes hmore.symm (hstays (hname _ ▸ hi) hd)
    · rw [htext]
      exact ih hmore.symm hrest

/-! ## Where the declarations stand -/

/-- A declaration reaches from an `import` to a string, or to a semicolon behind it. -/
theorem exists_of_mem_importsAmong {declaration : Import}
    (h : declaration ∈ importsAmong afterDot tokens) :
    ∃ first ∈ tokens, ∃ last ∈ tokens, first.isName "import" = true ∧
      (last.kind = .string ∨ last.isMark ";" = true) ∧
      declaration.start = first.start ∧ declaration.stop = last.stop := by
  induction afterDot, tokens using declaration_induction with
  | nil afterDot => simp at h
  | declaration token rest clause hn hr ih =>
    obtain ⟨before, hs, -, hlast⟩ := Clause.exists_of_read? hr
    rw [importsAmong_declaration hn hr] at h
    rcases List.mem_cons.1 h with rfl | h
    · have hmem : clause.last ∈ rest := by
        rw [hs]
        simp
      exact ⟨token, List.mem_cons_self, clause.last, List.mem_cons_of_mem _ hmem, hn, hlast, rfl,
        rfl⟩
    · obtain ⟨first, hf, last, hl, hfacts⟩ := ih h
      have hsub : ∀ inner ∈ rest.drop clause.length, inner ∈ token :: rest :=
        fun inner hi => List.mem_cons_of_mem _ (List.mem_of_mem_drop hi)
      exact ⟨first, hsub first hf, last, hsub last hl, hfacts⟩
  | stays afterDot token rest hs ih =>
    rw [importsAmong_stays hs] at h
    obtain ⟨first, hf, last, hl, hfacts⟩ := ih h
    exact ⟨first, List.mem_cons_of_mem _ hf, last, List.mem_cons_of_mem _ hl, hfacts⟩

/-- The tokens stand behind the offset, one after the other. -/
structure Ordered (offset : Nat) (tokens : List Token) : Prop where
  behind : ∀ token ∈ tokens, offset ≤ token.start
  filled : ∀ token ∈ tokens, token.start < token.stop
  apart : tokens.Pairwise fun token next => token.stop ≤ next.start

/-- The tokens of a text stand behind its offset. -/
theorem ordered_scan (offset line : Nat) (text : List Char) :
    Ordered offset (scan offset line text) where
  behind _ ht := (start_le_of_mem_scan ht).1
  filled _ ht := (start_le_of_mem_scan ht).2
  apart := pairwise_scan offset line text

/-- What comes after a token stands behind it. -/
theorem Ordered.after {offset : Nat} {before after : List Token}
    (h : Ordered offset (before ++ token :: after)) : Ordered token.stop after where
  behind next hn := (List.pairwise_cons.1 (List.pairwise_append.1 h.apart).2.1).1 next hn
  filled next hn := h.filled next (by simp [hn])
  apart := (List.pairwise_cons.1 (List.pairwise_append.1 h.apart).2.1).2

/-- What comes after the first token stands behind it. -/
theorem Ordered.tail {offset : Nat} (h : Ordered offset (token :: rest)) :
    Ordered token.stop rest := by
  rw [← List.nil_append (token :: rest)] at h
  exact h.after

/-- The declarations stand behind the offset, one after the other. -/
def Spaced : Nat → List Import → Prop
  | _, [] => True
  | offset, declaration :: rest =>
    offset ≤ declaration.start ∧ declaration.start < declaration.stop ∧
      Spaced declaration.stop rest

/-- The offset may be smaller. -/
theorem Spaced.mono {offset other : Nat} (hle : other ≤ offset) :
    ∀ {declarations : List Import}, Spaced offset declarations → Spaced other declarations
  | [], _ => trivial
  | _ :: _, h => ⟨Nat.le_trans hle h.1, h.2⟩

/-- Every declaration stands behind the offset. -/
theorem Spaced.le_start {offset : Nat} {declarations : List Import}
    (h : Spaced offset declarations) :
    ∀ declaration ∈ declarations, offset ≤ declaration.start := by
  induction declarations generalizing offset with
  | nil => simp
  | cons first rest ih =>
    intro declaration hd
    rcases List.mem_cons.1 hd with rfl | hd
    · exact h.1
    · have := ih h.2.2 declaration hd
      have := h.1
      have := h.2.1
      omega

/-- The offset may be larger by one, if no declaration starts there. -/
theorem Spaced.succ {offset : Nat} {declarations : List Import} (h : Spaced offset declarations)
    (hne : ∀ declaration ∈ declarations, declaration.start ≠ offset) :
    Spaced (offset + 1) declarations := by
  cases declarations with
  | nil => trivial
  | cons first rest =>
    exact ⟨Nat.lt_of_le_of_ne h.1 (hne first List.mem_cons_self).symm, h.2⟩

/-- A declaration ends behind its start, and what comes after it stands behind its end. -/
theorem Ordered.behindClause {offset : Nat} (h : Ordered offset (token :: rest))
    (hr : Clause.read? bound rest = some clause) :
    token.stop ≤ clause.last.start ∧ clause.last.start < clause.last.stop ∧
      Ordered clause.last.stop (rest.drop clause.length) := by
  obtain ⟨before, hs, -, -⟩ := Clause.exists_of_read? hr
  have hlast : clause.last ∈ rest := by
    rw [hs]
    simp
  have hrest : Ordered token.stop rest := h.tail
  refine ⟨hrest.behind _ hlast, hrest.filled _ hlast, ?_⟩
  rw [hs] at hrest
  exact hrest.after

/-- The declarations among tokens that stand in order are in order and do not overlap. -/
theorem spaced_importsAmong {offset : Nat} (h : Ordered offset tokens) :
    Spaced offset (importsAmong afterDot tokens) := by
  induction afterDot, tokens using declaration_induction generalizing offset with
  | nil afterDot => rw [importsAmong_nil]; trivial
  | declaration token rest clause hn hr ih =>
    rw [importsAmong_declaration hn hr]
    obtain ⟨hstart, hstop, hdrop⟩ := h.behindClause hr
    have hfilled := h.filled token List.mem_cons_self
    have hlt : token.start < clause.last.stop := by omega
    exact ⟨h.behind token List.mem_cons_self, hlt, ih hdrop⟩
  | stays afterDot token rest hs ih =>
    rw [importsAmong_stays hs]
    have hbehind := h.behind token List.mem_cons_self
    have hfilled := h.filled token List.mem_cons_self
    exact (ih (h.tail)).mono (by omega)

/-- The token lies inside the declaration. -/
def Import.covers (declaration : Import) (token : Token) : Bool :=
  declaration.start ≤ token.start && token.stop ≤ declaration.stop

/-- A declaration covers its first token, and those behind it up to its last one. -/
theorem Clause.covers_of_mem {offset : Nat} (h : Ordered offset (token :: rest))
    {before after : List Token} (hs : rest = before ++ clause.last :: after) :
    ∀ inner ∈ token :: (before ++ [clause.last]),
      (clause.toImport token).covers inner = true := by
  intro inner hi
  have hfilled := h.filled token List.mem_cons_self
  have hrest : Ordered token.stop rest := h.tail
  have hlast := hrest.behind clause.last (by simp [hs])
  have hend := hrest.filled clause.last (by simp [hs])
  have hbetween : token.start ≤ inner.start ∧ inner.stop ≤ clause.last.stop := by
    rw [hs] at hrest
    rcases List.mem_cons.1 hi with rfl | hi
    · omega
    rcases List.mem_append.1 hi with hi | hi
    · have hbehind := hrest.behind inner (List.mem_append_left _ hi)
      have happart := (List.pairwise_append.1 hrest.apart).2.2 inner hi clause.last
        List.mem_cons_self
      omega
    · rw [List.mem_singleton.1 hi]
      omega
  simp [Import.covers, Clause.toImport, hbetween]

/-- It covers no token that stands behind its last one. -/
theorem Clause.covers_eq_false (h : Ordered clause.last.stop others) :
    ∀ outer ∈ others, (clause.toImport token).covers outer = false := by
  intro outer ho
  have hbehind := h.behind outer ho
  have hfilled := h.filled outer ho
  have hnot : ¬ outer.stop ≤ clause.last.stop := by omega
  simp [Import.covers, Clause.toImport, hnot]

/-- No declaration covers a token in front of it. -/
theorem Spaced.covers_eq_false {declarations : List Import}
    (h : Spaced token.stop declarations) (hfilled : token.start < token.stop) :
    ∀ declaration ∈ declarations, declaration.covers token = false := by
  intro declaration hd
  have hle := h.le_start declaration hd
  have hnot : ¬ declaration.start ≤ token.start := by omega
  simp [Import.covers, hnot]

/-- The tokens outside the declarations are those that are left. -/
theorem filter_covers {offset : Nat} (h : Ordered offset tokens) :
    tokens.filter (fun token => !(importsAmong afterDot tokens).any (·.covers token)) =
      remaining afterDot tokens := by
  induction afterDot, tokens using declaration_induction generalizing offset with
  | nil afterDot => simp
  | declaration token rest clause hn hr ih =>
    obtain ⟨-, -, hdrop⟩ := h.behindClause hr
    obtain ⟨before, hs, -, -⟩ := Clause.exists_of_read? hr
    rw [importsAmong_declaration hn hr, remaining_declaration hn hr, ← ih hdrop]
    have hinside := Clause.covers_of_mem h hs
    have houtside : ∀ outer ∈ rest.drop clause.length,
        (clause.toImport token).covers outer = false := Clause.covers_eq_false hdrop
    have hsplit : token :: rest =
        (token :: (before ++ [clause.last])) ++ rest.drop clause.length := by
      conv => lhs; rw [hs]
      simp
    rw [hsplit, List.filter_append, List.filter_eq_nil_iff.2, List.nil_append]
    · refine List.filter_congr fun outer ho => ?_
      rw [List.any_cons, houtside outer ho, Bool.false_or]
    · intro inner hi
      rw [List.any_cons, hinside inner hi]
      simp
  | stays afterDot token rest hs ih =>
    have hfilled := h.filled token List.mem_cons_self
    have hspaced : Spaced token.stop (importsAmong (token.text = ".") rest) :=
      spaced_importsAmong h.tail
    rw [importsAmong_stays hs, remaining_stays hs, ← ih h.tail, List.filter_cons_of_pos]
    rw [Bool.not_eq_true', List.any_eq_false]
    intro declaration hd
    rw [hspaced.covers_eq_false hfilled declaration hd]
    exact Bool.false_ne_true

end

end Bundler.Source
