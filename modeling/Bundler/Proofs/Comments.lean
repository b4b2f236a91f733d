import Bundler.Proofs.Slices

/-!
# Comments

A comment has no tokens (`IsComment.scan_eq`), and a text of whole lines that closes what it opens
is read the same way whatever stands below it (`scan_append_lines`). So a comment between two lines
only moves the tokens behind it (`tokens_comment`), and with them the declarations that stand or end
there (`imports_comment`): none is found in a comment, and none is lost by one, also where the
comment stands in the middle of a declaration.
-/

namespace Bundler.Source

open Text

/-- A comment: two slashes and the rest of a line with its line feed, or what stands between a slash
with a star and the first star with a slash. -/
inductive IsComment : String → Prop
  | line {body : String} : '\n' ∉ body.toList → IsComment ("//" ++ body ++ "\n")
  | block {body : String} : ¬ ['*', '/'] <:+: body.toList → IsComment ("/*" ++ body ++ "*/")

/-- The token when so many characters and lines are put into the text at the place. -/
def Token.shiftFrom (place chars lines : Nat) (token : Token) : Token :=
  { token with
    start := if place ≤ token.start then token.start + chars else token.start
    stop := if place ≤ token.stop then token.stop + chars else token.stop
    line := if place ≤ token.start then token.line + lines else token.line }

/-- The declaration when so many characters and lines are put into the text at the place. -/
def Import.shiftFrom (place chars lines : Nat) (declaration : Import) : Import :=
  { declaration with
    start := if place ≤ declaration.start then declaration.start + chars else declaration.start
    stop := if place ≤ declaration.stop then declaration.stop + chars else declaration.stop
    line := if place ≤ declaration.start then declaration.line + lines else declaration.line }

section
variable {text body later : List Char} {comment : String} {offset line place n m : Nat}
  {token : Token}

/-! ## A comment is skipped -/

/-- A block comment ends with the first star and slash. -/
theorem closed_blockComment (h : ¬ ['*', '/'] <:+: body) :
    Closed blockCommentLength (body ++ ['*', '/']) := by
  intro later
  induction body with
  | nil => exact blockCommentLength_mark
  | cons c rest ih =>
    have hrest : ¬ ['*', '/'] <:+: rest := fun hi => h (List.infix_cons hi)
    have hplain : ¬ (c = '*' ∧ (rest ++ ['*', '/'] ++ later).head? = some '/') := by
      rintro ⟨rfl, hhead⟩
      cases rest with
      | nil => cases hhead
      | cons d more =>
        cases hhead
        exact h ⟨[], more, rfl⟩
    rw [List.cons_append, List.cons_append, blockCommentLength_plain hplain, ih hrest]
    rfl

/-- A comment only moves the offset and the line. -/
theorem IsComment.scan_eq (h : IsComment comment) :
    scan offset line (comment.toList ++ later) =
      scan (offset + comment.length) (line + lineFeeds comment.toList) later := by
  rw [← String.length_toList]
  cases h with
  | @line body hb =>
    have hp : Leading '/' ('/' :: body.toList) ('\n' :: later) none := by
      refine .lineComment (fun d hd he => hb (he ▸ hd)) ?_
      rintro d ⟨⟩
      rfl
    have hchars : ("//" ++ body ++ "\n").toList = '/' :: ('/' :: body.toList) ++ ['\n'] := by
      simp
    have hlines : lineFeeds ('/' :: ('/' :: body.toList) ++ ['\n']) =
        lineFeeds ('/' :: '/' :: body.toList) + lineFeeds ['\n'] := List.count_append
    rw [hchars, hlines, List.append_assoc, List.cons_append, List.singleton_append, hp.scan_skip,
      scan_blank (by decide +kernel), List.length_append, List.length_cons, List.length_singleton,
      Nat.add_assoc line]
    rfl
  | @block body hb =>
    have hp : Leading '/' ('*' :: (body.toList ++ ['*', '/'])) later none :=
      .blockComment (closed_blockComment hb)
    have hchars : ("/*" ++ body ++ "*/").toList =
        '/' :: '*' :: (body.toList ++ ['*', '/']) := by
      simp
    rw [hchars, List.cons_append, hp.scan_skip, Nat.add_assoc offset]
    rfl

/-! ## Whole lines -/

/-- Whole lines that close what they open have their own tokens above any text. -/
theorem scan_append_lines (hl : ∀ c ∈ text.getLast?, c = '\n')
    (hf : Finished (scan offset line text)) (below : List Char) :
    scan offset line (text ++ below) = scan offset line text ++
      scan (offset + text.length) (line + lineFeeds text) below := by
  rcases List.eq_nil_or_concat text with rfl | ⟨front, last, rfl⟩
  · simp [lineFeeds]
  have hlast : last = '\n' := hl last (by simp)
  have hfront : scan offset line (front ++ ['\n']) = scan offset line front :=
    scan_append_blanks (List.forall_mem_singleton.2 (by decide +kernel)) front
  have hlines : lineFeeds (front ++ ['\n']) = lineFeeds front + lineFeeds ['\n'] :=
    List.count_append
  rw [List.concat_eq_append, hlast] at hf ⊢
  rw [hfront] at hf ⊢
  rw [List.append_assoc, List.singleton_append, scan_append hf, scan_blank (by decide +kernel),
    hlines, List.length_append, List.length_singleton, Nat.add_assoc, Nat.add_assoc]

/-- The tokens of whole lines end in front of the last line feed. -/
theorem stop_lt_of_mem_scan (hl : ∀ c ∈ text.getLast?, c = '\n')
    (ht : token ∈ scan offset line text) : token.stop < offset + text.length := by
  rcases List.eq_nil_or_concat text with rfl | ⟨front, last, rfl⟩
  · simp at ht
  have hlast : last = '\n' := hl last (by simp)
  rw [List.concat_eq_append, hlast,
    scan_append_blanks (List.forall_mem_singleton.2 (by decide +kernel))] at ht
  have hle := stop_le_of_mem_scan ht
  rw [List.concat_eq_append, List.length_append, List.length_singleton]
  omega

/-! ## What a comment moves -/

variable {before after : String}

/-- What stands in front of the place stays. -/
theorem Token.shiftFrom_of_lt (h : token.start < place ∧ token.stop < place) :
    token.shiftFrom place n m = token := by
  simp [shiftFrom, Nat.not_le.2 h.1, Nat.not_le.2 h.2]

/-- What stands behind the place moves. -/
theorem Token.shiftFrom_of_le (h : place ≤ token.start ∧ place ≤ token.stop) :
    token.shiftFrom place n m = token.shift n m := by
  simp [shiftFrom, shift, h]

/-- A comment below whole lines that close what they open moves the tokens behind it. -/
theorem tokens_comment (hl : ∀ c ∈ before.toList.getLast?, c = '\n') (hs : SelfContained before)
    (hc : IsComment comment) :
    tokens (before ++ comment ++ after) = (tokens (before ++ after)).map
      (.shiftFrom before.length comment.length (lineFeeds comment.toList)) := by
  have habove : ∀ below, scan 0 1 (before.toList ++ below) = tokens before ++
      scan (0 + before.toList.length) (1 + lineFeeds before.toList) below := scan_append_lines hl hs
  rw [tokens, tokens, String.toList_append, String.toList_append, String.toList_append,
    List.append_assoc, habove, habove, hc.scan_eq, scan_shift, List.map_append, Nat.zero_add,
    String.length_toList]
  congr 1
  · have hstay : ∀ token ∈ tokens before,
        token.shiftFrom before.length comment.length (lineFeeds comment.toList) = token := by
      intro token ht
      have hstop := stop_lt_of_mem_scan hl ht
      have hstart := (start_le_of_mem_scan ht).2
      rw [← String.length_toList]
      exact Token.shiftFrom_of_lt ⟨by omega, by omega⟩
    rw [List.map_congr_left hstay, List.map_id']
  · refine List.map_congr_left fun token ht => (Token.shiftFrom_of_le ?_).symm
    obtain ⟨hstart, hstop⟩ := start_le_of_mem_scan ht
    exact ⟨hstart, by omega⟩

end

/-- A comment below whole lines that close what they open changes nothing about the declarations but
the places of those that stand behind it, and the ends of those that reach over it. No declaration
is found in the comment, and none is broken by it. -/
theorem imports_comment {before comment : String} (after : String)
    (lines : ∀ c ∈ before.toList.getLast?, c = '\n') (closed : SelfContained before)
    (hc : IsComment comment) :
    imports (before ++ comment ++ after) = (imports (before ++ after)).map
      (.shiftFrom before.length comment.length (lineFeeds comment.toList)) := by
  rw [imports, imports, tokens_comment lines closed hc]
  exact importsAmong_map (.shiftFrom before.length comment.length (lineFeeds comment.toList)) _
    (fun _ => rfl) (fun _ _ => rfl) false _

/-- A comment in the middle of a declaration, with two others in it that are not found. -/
theorem imports_comment_amid :
    SelfContained "import a from 'a'\nimport b\n" ∧
    IsComment "/** import c from 'c' *\n/import * as d from \"d\" **/" ∧
    imports ("import a from 'a'\nimport b\n" ++ ", e from 'b';\nimport f from 'f'") =
      [⟨"a", 0, 17, 1⟩, ⟨"b", 18, 40, 2⟩, ⟨"f", 41, 58, 4⟩] ∧
    imports ("import a from 'a'\nimport b\n" ++
        "/** import c from 'c' *\n/import * as d from \"d\" **/" ++
        ", e from 'b';\nimport f from 'f'") =
      [⟨"a", 0, 17, 1⟩, ⟨"b", 18, 91, 2⟩, ⟨"f", 92, 109, 5⟩] := by
  have hl : ∀ c ∈ "import a from 'a'\nimport b\n".toList.getLast?, c = '\n' := by simp
  have hs : SelfContained "import a from 'a'\nimport b\n" := by decide +kernel
  have hc : IsComment ("/*" ++ "* import c from 'c' *\n/import * as d from \"d\" *" ++ "*/") :=
    .block (by decide +kernel)
  exact ⟨hs, hc, by decide +kernel,
    (imports_comment _ hl hs hc).trans (by decide +kernel)⟩

end Bundler.Source
