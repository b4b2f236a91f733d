import Bundler.Text.Lines
import Bundler.Text.Word

/-!
# Tokens of module source

A source text is read from the left in pieces. What the next piece is, and how far it reaches, is
decided by its first character and what follows (`Piece.front`): a run of white space, a comment, a
name, a number, a string, a template, or one character of punctuation. A comment, string or template
that is never closed is no piece of that kind, and its first character is punctuation. So every text
can be read (`tokens` is a total function), and each piece has at least one character.

White space and comments are dropped. The other pieces are the tokens, with their offsets and line.
-/

namespace Bundler.Source

open Text

/-- The kinds of tokens. -/
inductive Kind where
  | name
  | number
  | string
  | template
  | punctuation
deriving DecidableEq, Repr

/-- A significant piece of a source text: its kind, its characters, the offsets of its first
character and of the character after it, and the line that it starts on, counted from one. -/
structure Token where
  kind : Kind
  text : String
  start : Nat
  stop : Nat
  line : Nat
deriving DecidableEq, Repr

/-- A character that a name goes on with. -/
def isNamePart (c : Char) : Bool :=
  isWord c || c == '$'

/-- A character that a number goes on with. -/
def isNumberPart (c : Char) : Bool :=
  isWord c || c == '.'

/-- The number of characters up to the end of a block comment, behind the mark that opens it. -/
def blockCommentLength : List Char → Option Nat
  | [] => none
  | '*' :: '/' :: _ => some 2
  | _ :: rest => (blockCommentLength rest).map (· + 1)

/-- The number of characters up to the end of a string, behind the mark that opens it. A backslash
takes the next character with it, and a line feed is never part of a string. -/
def stringLength (mark : Char) : List Char → Option Nat
  | [] => none
  | '\\' :: c :: rest => if c = '\n' then none else (stringLength mark rest).map (· + 2)
  | c :: rest =>
    if c = mark then some 1
    else if c = '\\' || c = '\n' then none
    else (stringLength mark rest).map (· + 1)

/-- The mark around a template. -/
def templateMark : Char := '\x60'

/-- The number of characters up to the end of a template, behind the mark that opens it. A backslash
takes the next character with it. -/
def templateLength : List Char → Option Nat
  | [] => none
  | '\\' :: _ :: rest => (templateLength rest).map (· + 2)
  | c :: rest =>
    if c = templateMark then some 1
    else if c = '\\' then none
    else (templateLength rest).map (· + 1)

/-- The next piece of a text: the kind of token that it is, if it is one, and the number of its
characters after the first. -/
structure Piece where
  kind? : Option Kind
  more : Nat
deriving DecidableEq, Repr

/-- One character of punctuation. -/
def Piece.mark : Piece := ⟨some .punctuation, 0⟩

/-- The piece at the front of a text that starts with `c` and goes on with `rest`. -/
def Piece.front (c : Char) (rest : List Char) : Piece :=
  if isBlank c then ⟨none, (rest.takeWhile isBlank).length⟩
  else if isDigit c then ⟨some .number, (rest.takeWhile isNumberPart).length⟩
  else if isNamePart c then ⟨some .name, (rest.takeWhile isNamePart).length⟩
  else if c = '\x22' || c = '\x27' then
    match stringLength c rest with
    | some length => ⟨some .string, length⟩
    | none => .mark
  else if c = templateMark then
    match templateLength rest with
    | some length => ⟨some .template, length⟩
    | none => .mark
  else if c = '/' then
    match rest with
    | '/' :: _ => ⟨none, (rest.takeWhile (· ≠ '\n')).length⟩
    | '*' :: inside =>
      match blockCommentLength inside with
      | some length => ⟨none, length + 1⟩
      | none => .mark
    | _ => .mark
  else .mark

/-- The tokens of a text whose first character has the given offset and line. -/
def scan (offset line : Nat) : List Char → List Token
  | [] => []
  | c :: rest =>
    let piece := Piece.front c rest
    let chars := c :: rest.take piece.more
    let stop := offset + piece.more + 1
    let later := scan stop (line + lineFeeds chars) (rest.drop piece.more)
    match piece.kind? with
    | none => later
    | some kind => ⟨kind, String.ofList chars, offset, stop, line⟩ :: later
termination_by text => text.length

/-- The tokens of a source text. -/
def tokens (content : String) : List Token :=
  scan 0 1 content.toList

/-- The token is the given name. -/
def Token.isName (token : Token) (text : String) : Bool :=
  token.kind = .name && token.text = text

/-- The token is the given punctuation. -/
def Token.isMark (token : Token) (text : String) : Bool :=
  token.kind = .punctuation && token.text = text

@[simp] theorem scan_nil {offset line : Nat} : scan offset line [] = [] := by
  simp [scan]

/-- A significant piece in front is the first token, the rest of the text gives the other ones. -/
theorem scan_token {offset line : Nat} {c : Char} {rest : List Char} {kind : Kind} {more : Nat}
    (h : Piece.front c rest = ⟨some kind, more⟩) :
    scan offset line (c :: rest) =
      ⟨kind, String.ofList (c :: rest.take more), offset, offset + more + 1, line⟩ ::
        scan (offset + more + 1) (line + lineFeeds (c :: rest.take more)) (rest.drop more) := by
  rw [scan]; simp [h]

/-- White space or a comment in front only moves the offset and the line. -/
theorem scan_skip {offset line : Nat} {c : Char} {rest : List Char} {more : Nat}
    (h : Piece.front c rest = ⟨none, more⟩) :
    scan offset line (c :: rest) =
      scan (offset + more + 1) (line + lineFeeds (c :: rest.take more)) (rest.drop more) := by
  rw [scan]; simp [h]

end Bundler.Source
