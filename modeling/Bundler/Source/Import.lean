import Bundler.Path
import Bundler.Source.Token

/-!
# Import declarations

A declaration is the name `import`, at least one binding token, the name `from`, a string, and a
semicolon if one follows. A binding token is a name, a brace, a comma or a star, so `from` itself
can be a binding. The scan goes from left to right: where no declaration starts at an `import`, it
goes on with the token after it, and an `import` behind a dot is a property (`importsAmong`).
`withoutImports` cuts the declarations out of a text and trims what is left.
-/

namespace Bundler.Source

/-- An import declaration: the text between its quotes, the offsets of its first character and of
the character after it, and the line that it starts on. -/
structure Import where
  specifier : Path
  start : Nat
  stop : Nat
  line : Nat
deriving DecidableEq, Repr

/-- A token that may stand between `import` and `from`. -/
def Token.isBinding (token : Token) : Bool :=
  token.kind = .name ||
    (token.kind = .punctuation && ["\x7b", "\x7d", ",", "*"].contains token.text)

/-- What follows the `import` of a declaration: the string, the last token, and the number of tokens
up to it. -/
structure Clause where
  source : Token
  last : Token
  length : Nat

/-- The end of a declaration, behind its bindings: `from`, a string, and perhaps a semicolon. -/
def Clause.ending? : List Token → Option Clause
  | word :: source :: rest =>
    if word.isName "from" && source.kind = .string then
      match rest with
      | next :: _ => if next.isMark ";" then some ⟨source, next, 3⟩ else some ⟨source, source, 2⟩
      | [] => some ⟨source, source, 2⟩
    else none
  | _ => none

/-- What follows an `import`, if it makes a declaration. The declaration ends at the first `from`
that a string follows, once there is a binding. -/
def Clause.read? (bound : Bool) : List Token → Option Clause
  | [] => none
  | token :: rest =>
    match if bound then ending? (token :: rest) else none with
    | some clause => some clause
    | none =>
      if token.isBinding then
        (read? true rest).map fun clause => { clause with length := clause.length + 1 }
      else none

/-- The text of a string token without its quotes. -/
def Token.unquoted (token : Token) : String :=
  String.ofList (token.text.toList.drop 1).dropLast

/-- The declaration that starts at a token. -/
def Clause.toImport (clause : Clause) (first : Token) : Import where
  specifier := clause.source.unquoted
  start := first.start
  stop := clause.last.stop
  line := first.line

/-- The declarations among the tokens, `afterDot` telling whether a dot stands before them. -/
def importsAmong (afterDot : Bool) : List Token → List Import
  | [] => []
  | token :: rest =>
    match if token.isName "import" && !afterDot then Clause.read? false rest else none with
    | some clause => clause.toImport token :: importsAmong false (rest.drop clause.length)
    | none => importsAmong (token.text = ".") rest
termination_by tokens => tokens.length

/-- The import declarations of a source text, in order. -/
def imports (content : String) : List Import :=
  importsAmong false (tokens content)

/-- The text from the offset on, without the declarations. A declaration that starts before the
offset leaves nothing in front of it. -/
def cut (content : List Char) (offset : Nat) : List Import → List Char
  | [] => content.drop offset
  | declaration :: rest =>
    (content.drop offset).take (declaration.start - offset) ++ cut content declaration.stop rest

/-- The text without the declarations, trimmed. -/
def without (content : String) (declarations : List Import) : String :=
  String.ofList (Text.trim (cut content.toList 0 declarations))

/-- The text without its import declarations, trimmed. -/
def withoutImports (content : String) : String :=
  without content (imports content)

end Bundler.Source
