import Bundler.Proofs.Declarations
import Mathlib.Data.List.Forall2

/-!
# The grammar of declarations

The scan for declarations tries one token after the other, and ends a declaration at the first
`from` that a string follows. What it finds can be said without the scan. `Declares` says at which
tokens a declaration can start: the bindings behind the `import` are taken as far as they reach, and
have to end with a `from` that is not the first of them and has a string behind it. No string is a
binding, so both readings end at the same `from` (`Clause.read?_eq_some_iff`, `declares_iff`).

A declaration starts wherever one can start outside of those before it (`Picks`). This determines
the places where they start (`Picks.unique`). From any token on (`PicksFrom`), a step of the scan
picks the next place or passes it over (`PicksFrom.cons`, `PicksFrom.pass`), so the scan finds the
declarations at these places (`imports_grammar`).
-/

namespace Bundler.Source

/-! ## What follows an `import` -/

/-- The clause that ends with the string `source` behind `n` bindings and a `from`, or with the
semicolon behind the string. -/
def Clause.closing (n : Nat) (source : Token) : List Token → Clause
  | [] => ⟨source, source, n + 2⟩
  | next :: _ => if next.isMark ";" then ⟨source, next, n + 3⟩ else ⟨source, source, n + 2⟩

/-- The tokens are bindings, the name `from`, a string, and what comes after it. -/
structure Clause.Parts (tokens inner : List Token) (word source : Token) (after : List Token) :
    Prop where
  tokens_eq : tokens = inner ++ word :: source :: after
  isBinding : ∀ token ∈ inner, token.isBinding = true
  isFrom : word.isName "from" = true
  isString : source.kind = .string

section
variable {bound afterDot : Bool} {token first word source : Token}
  {tokens rest before inner after : List Token} {clause : Clause}

/-- A string is no binding. -/
theorem Token.isBinding_of_string (h : token.kind = .string) : token.isBinding = false := by
  simp [Token.isBinding, h]

/-- The end of a declaration is `from`, a string, and a semicolon if one follows. -/
theorem Clause.ending?_cons_cons : Clause.ending? (word :: source :: after) =
    if word.isName "from" && source.kind = .string then some (closing 0 source after)
    else none := by
  cases after with
  | nil => simp [ending?, closing]
  | cons next more =>
    simp only [ending?, closing]
    split
    · split <;> rfl
    · rfl

/-- A declaration ends where the parts of a clause begin that has no more bindings. -/
theorem Clause.Parts.ending? (h : Parts tokens [] word source after) :
    Clause.ending? tokens = some (closing 0 source after) := by
  rw [h.tokens_eq, List.nil_append, ending?_cons_cons]
  simp [h.isFrom, h.isString]

/-- It does not end in front of the last binding. -/
theorem Clause.Parts.ending?_eq_none
    (h : Parts (token :: rest) (token :: inner) word source after) :
    Clause.ending? (token :: rest) = none := by
  refine Clause.ending?_eq_none_iff.2 fun _ next hn hs => ?_
  obtain ⟨-, hrest⟩ := List.cons.inj h.tokens_eq
  have hnext : next.isBinding = true := by
    cases inner with
    | nil =>
      rw [hrest] at hn
      cases hn
      exact Token.isBinding_of_isName h.isFrom
    | cons _ more =>
      rw [hrest] at hn
      cases hn
      exact h.isBinding next (by simp)
  rw [Token.isBinding_of_string hs] at hnext
  cases hnext

/-- A token in front of the bindings is one more of them. -/
theorem Clause.Parts.cons (h : Parts rest inner word source after) (hb : token.isBinding = true) :
    Parts (token :: rest) (token :: inner) word source after where
  tokens_eq := by rw [h.tokens_eq, List.cons_append]
  isBinding := List.forall_mem_cons.2 ⟨hb, h.isBinding⟩
  isFrom := h.isFrom
  isString := h.isString

/-- The first binding can be taken away. -/
theorem Clause.Parts.of_cons (h : Parts (token :: rest) (first :: inner) word source after) :
    token = first ∧ token.isBinding = true ∧ Parts rest inner word source after := by
  obtain ⟨rfl, hrest⟩ := List.cons.inj h.tokens_eq
  obtain ⟨hfirst, hinner⟩ := List.forall_mem_cons.1 h.isBinding
  exact ⟨rfl, hfirst, hrest, hinner, h.isFrom, h.isString⟩

/-- One more binding makes a clause longer by one. -/
theorem Clause.closing_succ (n : Nat) (source : Token) (after : List Token) :
    closing (n + 1) source after =
      { closing n source after with length := (closing n source after).length + 1 } := by
  cases after with
  | nil => rfl
  | cons next more =>
    simp only [closing]
    split <;> rfl

/-- A clause is read exactly if there are its parts, with a binding in front of the `from` unless
there was one before. -/
theorem Clause.read?_eq_some_iff : Clause.read? bound tokens = some clause ↔
    ∃ inner word source after, Parts tokens inner word source after ∧
      (bound = false → inner ≠ []) ∧ clause = closing inner.length source after := by
  constructor
  · intro h
    induction tokens generalizing bound clause with
    | nil => simp [read?] at h
    | cons token rest ih =>
      rw [read?] at h
      split at h
      · next ending he =>
        cases h
        cases bound with
        | false => simp at he
        | true =>
          cases rest with
          | nil => simp [Clause.ending?] at he
          | cons next after =>
            rw [if_pos rfl, ending?_cons_cons] at he
            split at he
            · next hword =>
              cases he
              obtain ⟨hfrom, hstring⟩ := Bool.and_eq_true_iff.1 hword
              have hp : Parts (token :: next :: after) [] token next after :=
                ⟨rfl, by simp, hfrom, by simpa using hstring⟩
              exact ⟨[], token, next, after, hp, by simp, rfl⟩
            · cases he
      · split at h
        · next hb =>
          obtain ⟨ending, hr, rfl⟩ := Option.map_eq_some_iff.1 h
          obtain ⟨inner, word, source, after, hp, -, rfl⟩ := ih hr
          exact ⟨token :: inner, word, source, after, hp.cons hb, fun _ => List.cons_ne_nil _ _,
            (closing_succ _ _ _).symm⟩
        · cases h
  · rintro ⟨inner, word, source, after, hp, hbound, rfl⟩
    induction inner generalizing bound tokens with
    | nil =>
      cases bound with
      | false => exact absurd rfl (hbound rfl)
      | true =>
        have he := hp.ending?
        rw [hp.tokens_eq, List.nil_append] at he ⊢
        rw [read?, if_pos rfl, he]
        rfl
    | cons token inner ih =>
      obtain ⟨rest, rfl⟩ : ∃ rest, tokens = token :: rest := ⟨_, hp.tokens_eq⟩
      obtain ⟨-, hb, hrest⟩ := hp.of_cons
      have hlook : (if bound = true then Clause.ending? (token :: rest) else none) = none := by
        split
        · exact hp.ending?_eq_none
        · rfl
      have hread : Clause.read? true rest = some (closing inner.length source after) :=
        ih hrest (by simp)
      rw [read?, hlook]
      dsimp only
      rw [if_pos hb, hread, Option.map_some, List.length_cons, closing_succ]

/-! ## Where a declaration can start -/

/-- The bindings behind a token, as far as they reach. -/
def bindingsBehind (tokens : List Token) (i : Nat) : List Token :=
  (tokens.drop (i + 1)).takeWhile Token.isBinding

/-- The place behind these bindings, where the string of a declaration has to be. -/
def sourceBehind (tokens : List Token) (i : Nat) : Nat :=
  i + 1 + (bindingsBehind tokens i).length

/-- The place where a declaration ends that starts at the token: at the string, or at the semicolon
behind it. -/
def lastBehind (tokens : List Token) (i : Nat) : Nat :=
  if (tokens[sourceBehind tokens i + 1]?).any (·.isMark ";") then sourceBehind tokens i + 1
  else sourceBehind tokens i

/-- A declaration can start at the token: it is `import` and not behind a dot, and the bindings that
follow it, as far as they reach, are at least two, the last of them is `from`, and a string stands
behind them. -/
structure Declares (tokens : List Token) (i : Nat) : Prop where
  isImport : ∃ first, tokens[i]? = some first ∧ first.isName "import" = true
  notAfterDot : ∀ j dot, i = j + 1 → tokens[j]? = some dot → dot.text ≠ "."
  two_le : 2 ≤ (bindingsBehind tokens i).length
  isFrom : ∃ word, (bindingsBehind tokens i).getLast? = some word ∧ word.isName "from" = true
  isString : ∃ source, tokens[sourceBehind tokens i]? = some source ∧ source.kind = .string

/-- The declaration is the one that starts at the token: it reaches to the last token, and names
what stands in the string between two quotation marks. -/
structure Import.StartsAt (declaration : Import) (tokens : List Token) (i : Nat) : Prop where
  first : ∃ first, tokens[i]? = some first ∧ declaration.start = first.start ∧
    declaration.line = first.line
  source : ∃ source mark, tokens[sourceBehind tokens i]? = some source ∧ IsQuote mark ∧
    source.text.toList = mark :: (declaration.specifier.toList ++ [mark])
  last : ∃ last, tokens[lastBehind tokens i]? = some last ∧ declaration.stop = last.stop

/-- The bindings behind a token are the first ones of what follows it. -/
theorem bindingsBehind_eq :
    bindingsBehind (before ++ first :: rest) before.length = rest.takeWhile Token.isBinding := by
  rw [bindingsBehind, List.drop_length_add_append, List.drop_one, List.tail_cons]

/-- The places behind a token, seen from it. -/
theorem getElem?_behind (n : Nat) :
    (before ++ first :: rest)[before.length + 1 + n]? = rest[n]? := by
  rw [Nat.add_assoc, List.getElem?_append_right (Nat.le_add_right _ _), Nat.add_sub_cancel_left,
    Nat.add_comm, List.getElem?_cons_succ]

/-- The bindings reach up to the string, so the last one is the `from` in front of it. -/
theorem Clause.Parts.takeWhile_eq (h : Parts tokens inner word source after) :
    tokens.takeWhile Token.isBinding = inner ++ [word] := by
  have hinner : ∀ token ∈ inner ++ [word], token.isBinding = true :=
    List.forall_mem_append.2 ⟨h.isBinding,
      List.forall_mem_singleton.2 (Token.isBinding_of_isName h.isFrom)⟩
  have hsource : ¬ source.isBinding = true := by
    rw [Token.isBinding_of_string h.isString]
    exact Bool.false_ne_true
  rw [h.tokens_eq, List.append_cons, List.takeWhile_append_of_pos hinner,
    List.takeWhile_cons_of_neg hsource, List.append_nil]

/-- A clause has its parts where the bindings end with `from` and a string stands behind them. -/
theorem Clause.exists_parts
    (hword : (tokens.takeWhile Token.isBinding).getLast? = some word)
    (hfrom : word.isName "from" = true)
    (hsource : tokens[(tokens.takeWhile Token.isBinding).length]? = some source)
    (hstring : source.kind = .string) :
    ∃ inner after, Parts tokens inner word source after ∧
      tokens.takeWhile Token.isBinding = inner ++ [word] := by
  obtain ⟨inner, hinner⟩ := List.getLast?_eq_some_iff.1 hword
  have hall : ∀ token ∈ tokens.takeWhile Token.isBinding, token.isBinding = true :=
    fun token ht => List.all_eq_true.1 List.all_takeWhile token ht
  have hsplit := (List.takeWhile_append_dropWhile (p := Token.isBinding) (l := tokens)).symm
  generalize tokens.takeWhile Token.isBinding = run at hsplit hinner hall hsource
  generalize tokens.dropWhile Token.isBinding = others at hsplit
  subst hinner
  rw [hsplit, List.getElem?_append_right (Nat.le_refl _), Nat.sub_self, ← List.head?_eq_getElem?]
    at hsource
  obtain ⟨after, rfl⟩ := List.head?_eq_some_iff.1 hsource
  rw [List.append_assoc, List.singleton_append] at hsplit
  exact ⟨inner, after, ⟨hsplit, fun token ht => hall token (List.mem_append_left _ ht), hfrom,
    hstring⟩, rfl⟩

/-- The token in front of a token is the last of those before it. -/
theorem notAfterDot_iff : (∀ j dot, before.length = j + 1 →
    (before ++ first :: rest)[j]? = some dot → dot.text ≠ ".") ↔
      ∀ dot ∈ before.getLast?, dot.text ≠ "." := by
  rcases List.eq_nil_or_concat before with rfl | ⟨front, last, rfl⟩
  · simp
  have hat : (front ++ [last] ++ first :: rest)[front.length]? = some last := by
    rw [List.append_assoc, List.getElem?_append_right (Nat.le_refl _), Nat.sub_self]
    rfl
  rw [List.concat_eq_append, List.getLast?_concat, List.length_append, List.length_singleton]
  constructor
  · rintro h dot ⟨⟩
    exact h front.length last rfl hat
  · rintro h j dot hj hfound
    cases Nat.succ.inj hj
    cases hat.symm.trans hfound
    exact h last rfl

/-- A declaration can start at a token exactly if it is `import`, no dot stands in front, and a
clause can be read behind it. -/
theorem declares_iff : Declares (before ++ first :: rest) before.length ↔
    first.isName "import" = true ∧ (∀ dot ∈ before.getLast?, dot.text ≠ ".") ∧
      ∃ clause, Clause.read? false rest = some clause := by
  have hfirst : (before ++ first :: rest)[before.length]? = some first := by
    rw [List.getElem?_append_right (Nat.le_refl _), Nat.sub_self, List.getElem?_cons_zero]
  constructor
  · rintro ⟨⟨found, hfound, himport⟩, hfree, htwo, ⟨word, hword, hfrom⟩, source, hsource, hstring⟩
    cases hfirst.symm.trans hfound
    rw [sourceBehind, getElem?_behind, bindingsBehind_eq] at hsource
    rw [bindingsBehind_eq] at htwo hword
    obtain ⟨inner, after, hp, hinner⟩ := Clause.exists_parts hword hfrom hsource hstring
    refine ⟨himport, notAfterDot_iff.1 hfree, _, Clause.read?_eq_some_iff.2
      ⟨inner, word, source, after, hp, fun _ he => ?_, rfl⟩⟩
    rw [hinner, he] at htwo
    exact Nat.not_succ_le_self 1 htwo
  · rintro ⟨himport, hfree, clause, hr⟩
    obtain ⟨inner, word, source, after, hp, hne, -⟩ := Clause.read?_eq_some_iff.1 hr
    have hinner := hp.takeWhile_eq
    refine ⟨⟨first, hfirst, himport⟩, notAfterDot_iff.2 hfree, ?_, ⟨word, ?_, hp.isFrom⟩,
      source, ?_, hp.isString⟩
    · have := List.length_pos_iff.2 (hne rfl)
      rw [bindingsBehind_eq, hinner, List.length_append, List.length_singleton]
      omega
    · rw [bindingsBehind_eq, hinner, List.getLast?_concat]
    · rw [sourceBehind, getElem?_behind, bindingsBehind_eq, hinner]
      simp [hp.tokens_eq]

/-- Where the string of a clause and what comes after it stand. -/
theorem Clause.Parts.getElem?_source (h : Parts rest inner word source after) (before : List Token)
    (first : Token) :
    sourceBehind (before ++ first :: rest) before.length = before.length + (inner.length + 2) ∧
      ∀ n, (before ++ first :: rest)[before.length + (inner.length + 2 + n)]? =
        (source :: after)[n]? := by
  constructor
  · rw [sourceBehind, bindingsBehind_eq, h.takeWhile_eq, List.length_append, List.length_singleton]
    omega
  · intro n
    have hplace : before.length + (inner.length + 2 + n) =
        before.length + 1 + (inner.length + 1 + n) := by omega
    rw [hplace, getElem?_behind, h.tokens_eq, List.append_cons,
      List.getElem?_append_right (by simp)]
    simp

/-- A declaration ends at the last token of its clause. -/
theorem getElem?_lastBehind (h : Clause.read? false rest = some clause) (before : List Token)
    (first : Token) :
    lastBehind (before ++ first :: rest) before.length = before.length + clause.length ∧
      (before ++ first :: rest)[before.length + clause.length]? = some clause.last := by
  obtain ⟨inner, word, source, after, hp, -, rfl⟩ := Clause.read?_eq_some_iff.1 h
  obtain ⟨hplace, hbehind⟩ := hp.getElem?_source before first
  have hnext : (before ++ first :: rest)[before.length + (inner.length + 2) + 1]? = after[0]? := by
    rw [Nat.add_assoc, hbehind 1, List.getElem?_cons_succ]
  rw [lastBehind, hplace, hnext]
  cases after with
  | nil => exact ⟨rfl, hbehind 0⟩
  | cons next more =>
    rw [List.getElem?_cons_zero, Option.any_some]
    by_cases hm : next.isMark ";" = true
    · rw [if_pos hm, Clause.closing, if_pos hm]
      exact ⟨rfl, hbehind 1⟩
    · rw [if_neg hm, Clause.closing, if_neg hm]
      exact ⟨rfl, hbehind 0⟩

/-- Strings are written between two quotation marks. -/
def Quoted (tokens : List Token) : Prop :=
  ∀ token ∈ tokens, token.kind = .string → ∃ mark, IsQuote mark ∧
    token.text.toList = mark :: (token.unquoted.toList ++ [mark])

/-- So neither a string nor a semicolon is a dot. -/
theorem Quoted.text_ne_dot (h : Quoted tokens) (ht : token ∈ tokens)
    (hk : token.kind = .string ∨ token.isMark ";" = true) : token.text ≠ "." := by
  rcases hk with hstring | hmark
  · obtain ⟨mark, -, htext⟩ := h token ht hstring
    intro he
    rw [he] at htext
    simpa using congrArg List.length htext
  · rw [(Token.of_isMark hmark).2]
    decide

/-- The strings of a text are. -/
theorem quoted_scan (offset line : Nat) (text : List Char) : Quoted (scan offset line text) := by
  intro token ht hk
  obtain ⟨-, c, chars, later, -, hp, htext, -, -⟩ := exists_leading_of_mem_scan ht
  rw [hk] at hp
  cases hp with
  | string hq hc =>
    have hlast := (stringLength_endsAt hq.classes.2.2.2.1).getLast?_of_closed hc
    obtain ⟨inside, rfl⟩ := List.getLast?_eq_some_iff.1 hlast
    refine ⟨c, hq, ?_⟩
    rw [Token.unquoted, htext]
    simp

/-- A clause makes the declaration that starts at the `import` in front of it. -/
theorem Clause.startsAt (hq : Quoted (before ++ first :: rest))
    (h : Clause.read? false rest = some clause) :
    (clause.toImport first).StartsAt (before ++ first :: rest) before.length := by
  obtain ⟨hlast, hfound⟩ := getElem?_lastBehind h before first
  refine ⟨⟨first, by simp, rfl, rfl⟩, ?_, clause.last, by rw [hlast, hfound], rfl⟩
  obtain ⟨inner, word, source, after, hp, -, hclause⟩ := Clause.read?_eq_some_iff.1 h
  obtain ⟨hplace, hbehind⟩ := hp.getElem?_source before first
  have hsource : clause.source = source := by
    rw [hclause]
    cases after with
    | nil => rfl
    | cons next more =>
      rw [closing]
      split <;> rfl
  have hmem : source ∈ before ++ first :: rest := List.mem_of_getElem? (hbehind 0)
  obtain ⟨mark, hmark, htext⟩ := hq source hmem hp.isString
  refine ⟨source, mark, by rw [hplace]; exact hbehind 0, hmark, ?_⟩
  rw [htext, ← hsource]
  rfl

/-! ## Where the declarations start -/

/-- The places are those in the tokens at which a declaration can start, without those that lie in
a declaration that starts before them. -/
structure Picks (tokens : List Token) (starts : List Nat) : Prop where
  sorted : starts.Pairwise (· < ·)
  mem_iff : ∀ i, i ∈ starts ↔
    Declares tokens i ∧ ∀ j ∈ starts, j < i → lastBehind tokens j < i

/-- The tokens determine the places. -/
theorem Picks.unique {starts others : List Nat} (h : Picks tokens starts)
    (h' : Picks tokens others) : starts = others := by
  have hmem : ∀ i, i ∈ starts ↔ i ∈ others := by
    intro i
    induction i using Nat.strongRecOn with
    | ind i ih =>
      rw [h.mem_iff, h'.mem_iff]
      refine and_congr_right fun _ => forall_congr' fun j => ?_
      constructor
      · exact fun hj hm hlt => hj ((ih j hlt).2 hm) hlt
      · exact fun hj hm hlt => hj ((ih j hlt).1 hm) hlt
  have hperm : starts.Perm others := (List.perm_ext_iff_of_nodup
    (h.sorted.imp Nat.ne_of_lt) (h'.sorted.imp Nat.ne_of_lt)).2 hmem
  exact hperm.eq_of_pairwise (fun _ _ _ _ hlt hgt => absurd hlt (Nat.lt_asymm hgt))
    h.sorted h'.sorted

/-- The places are those from the offset on at which a declaration can start, without those that
lie in a declaration that starts there before them. -/
structure PicksFrom (tokens : List Token) (offset : Nat) (starts : List Nat) : Prop where
  sorted : starts.Pairwise (· < ·)
  mem_iff : ∀ i, i ∈ starts ↔ offset ≤ i ∧ Declares tokens i ∧
    ∀ j ∈ starts, j < i → lastBehind tokens j < i

/-- Behind the last token no declaration starts. -/
theorem picksFrom_nil {offset : Nat} (h : tokens.length ≤ offset) :
    PicksFrom tokens offset [] where
  sorted := .nil
  mem_iff i := by
    refine iff_of_false List.not_mem_nil ?_
    rintro ⟨hle, ⟨⟨first, hfirst, -⟩, -⟩, -⟩
    rw [List.getElem?_eq_none (Nat.le_trans h hle)] at hfirst
    cases hfirst

/-- A place where a declaration can start is picked, and the search goes on behind it. -/
theorem PicksFrom.cons {offset : Nat} {starts : List Nat}
    (h : PicksFrom tokens (lastBehind tokens offset + 1) starts) (hd : Declares tokens offset)
    (hle : offset ≤ lastBehind tokens offset) : PicksFrom tokens offset (offset :: starts) := by
  have hbehind : ∀ i ∈ starts, lastBehind tokens offset < i := fun i hi => ((h.mem_iff i).1 hi).1
  refine ⟨List.pairwise_cons.2 ⟨fun i hi => Nat.lt_of_le_of_lt hle (hbehind i hi), h.sorted⟩,
    fun i => ?_⟩
  rw [List.mem_cons, List.forall_mem_cons]
  by_cases hi : i = offset
  · rw [hi]
    refine iff_of_true (.inl rfl) ⟨Nat.le_refl _, hd, fun hlt => absurd hlt (Nat.lt_irrefl _), ?_⟩
    intro j hj hlt
    have := hbehind j hj
    omega
  · rw [or_iff_right hi, h.mem_iff]
    constructor
    · rintro ⟨hlt, hdi, hafter⟩
      exact ⟨by omega, hdi, fun _ => hlt, hafter⟩
    · rintro ⟨hge, hdi, hlt, hafter⟩
      exact ⟨hlt (by omega), hdi, hafter⟩

/-- Any other place is passed over. -/
theorem PicksFrom.pass {offset : Nat} {starts : List Nat} (h : PicksFrom tokens (offset + 1) starts)
    (hd : ¬ Declares tokens offset) : PicksFrom tokens offset starts where
  sorted := h.sorted
  mem_iff i := by
    rw [h.mem_iff]
    refine and_congr_left ?_
    rintro ⟨hi, -⟩
    refine ⟨Nat.le_of_succ_le, fun hle => Nat.lt_of_le_of_ne hle ?_⟩
    rintro rfl
    exact hd hi

/-- The declarations among the tokens behind others start at the places there where one can start
outside of those before it. -/
theorem importsAmong_startsAt (hq : Quoted (before ++ tokens))
    (hdot : afterDot = true ↔ ∃ dot ∈ before.getLast?, dot.text = ".") : ∃ starts : List Nat,
      PicksFrom (before ++ tokens) before.length starts ∧
      List.Forall₂ (fun i declaration => declaration.StartsAt (before ++ tokens) i) starts
        (importsAmong afterDot tokens) := by
  induction afterDot, tokens using declaration_induction generalizing before with
  | nil afterDot =>
    rw [importsAmong_nil]
    exact ⟨[], picksFrom_nil (by simp), .nil⟩
  | declaration token rest clause hn hr ih =>
    obtain ⟨front, hrest, hlength, hlast⟩ := Clause.exists_of_read? hr
    obtain ⟨hstop, -⟩ := getElem?_lastBehind hr before token
    have hstart := Clause.startsAt hq hr
    have hdeclares : Declares (before ++ token :: rest) before.length :=
      declares_iff.2 ⟨hn, fun dot hd htext => by simpa using hdot.2 ⟨dot, hd, htext⟩, clause, hr⟩
    have hsplit : before ++ token :: rest =
        (before ++ token :: (front ++ [clause.last])) ++ rest.drop clause.length := by
      conv => lhs; rw [hrest]
      simp
    have hseen : (before ++ token :: (front ++ [clause.last])).length =
        lastBehind (before ++ token :: rest) before.length + 1 := by
      simp only [hstop, List.length_append, List.length_cons, List.length_nil]
      omega
    rw [importsAmong_declaration hn hr]
    generalize before ++ token :: rest = tokens at hq hstart hstop hdeclares hsplit hseen ⊢
    have hnodot : false = true ↔
        ∃ dot ∈ (before ++ token :: (front ++ [clause.last])).getLast?, dot.text = "." := by
      refine iff_of_false Bool.false_ne_true ?_
      rintro ⟨dot, hd, htext⟩
      rw [← List.cons_append, ← List.append_assoc, List.getLast?_concat] at hd
      cases hd
      have hmem : clause.last ∈ tokens := by simp [hsplit]
      exact hq.text_ne_dot hmem hlast htext
    obtain ⟨starts, hpicks, hall⟩ := ih (hsplit ▸ hq) hnodot
    rw [← hsplit] at hpicks hall
    rw [hseen] at hpicks
    exact ⟨before.length :: starts, hpicks.cons hdeclares (by omega), .cons hstart hall⟩
  | stays afterDot token rest hs ih =>
    have hpass : ¬ Declares (before ++ token :: rest) before.length := by
      intro hd
      obtain ⟨himport, hfree, clause, hr⟩ := declares_iff.1 hd
      have hbefore : afterDot = false := by
        rw [Bool.eq_false_iff, Ne, hdot]
        rintro ⟨dot, hlast, htext⟩
        exact hfree dot hlast htext
      cases hr.symm.trans (hs himport hbefore)
    rw [importsAmong_stays hs]
    rw [List.append_cons] at hq hpass ⊢
    obtain ⟨starts, hpicks, hall⟩ := @ih (before ++ [token]) hq (by simp)
    rw [List.length_append, List.length_singleton] at hpicks
    exact ⟨starts, hpicks.pass hpass, hall⟩

end

/-- The declarations of a text are those of the grammar: there is exactly one way to pick the places
where a declaration can start outside of those before it, and the declarations start there. -/
theorem imports_grammar (content : String) : ∃ starts : List Nat, Picks (tokens content) starts ∧
    (∀ others, Picks (tokens content) others → others = starts) ∧
    List.Forall₂ (fun i declaration => declaration.StartsAt (tokens content) i) starts
      (imports content) := by
  obtain ⟨starts, ⟨hsorted, hmem⟩, hall⟩ :=
    @importsAmong_startsAt false (tokens content) [] (quoted_scan 0 1 content.toList) (by simp)
  simp only [List.nil_append, List.length_nil, Nat.zero_le, true_and] at hmem hall
  exact ⟨starts, ⟨hsorted, hmem⟩, fun others ho => ho.unique ⟨hsorted, hmem⟩, hall⟩

end Bundler.Source
