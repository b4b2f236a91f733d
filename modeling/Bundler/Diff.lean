import Bundler.Console
import Bundler.Error
import Bundler.Text.Integer
import Bundler.Text.Lines

/-!
# Line differences

Two texts are compared line by line at the same index, with no alignment, so an inserted line shows
as a change of every line after it. A side of a change is absent where the text has no such line.
`Change.render` shows a change as the old and the new line, each behind its number. A change can
come from elsewhere than a text, and `renderDiff?` refuses one whose number is too long to be shown.
-/

namespace Bundler

/-- A line at which two texts differ. -/
structure Change where
  index : Int
  removed : Option String := none
  added : Option String := none
deriving DecidableEq, Repr

/-- The changes between two lists of lines that start at the index. -/
def changesFrom (index : Nat) : List String → List String → List Change
  | [], [] => []
  | old :: olds, [] => ⟨index, some old, none⟩ :: changesFrom (index + 1) olds []
  | [], new :: news => ⟨index, none, some new⟩ :: changesFrom (index + 1) [] news
  | old :: olds, new :: news =>
    let later := changesFrom (index + 1) olds news
    if old = new then later else ⟨index, some old, some new⟩ :: later

/-- The changes that lead from one text to the other, in the order of their lines. -/
def diff (old new : String) : List Change :=
  changesFrom 0 (Text.splitLines old) (Text.splitLines new)

/-- The line of a change behind its number, counted from one, and a sign; in a colour if wanted. -/
def Change.side (color : Bool) (style sign : String) (number : Int) (line : String) : String :=
  let shown := Text.padLeft 4 (toString number) ++ " " ++ sign ++ " " ++ line
  if color then style ++ shown ++ Style.reset else shown

/-- A change as lines: the removed one, then the added one. -/
def Change.render (color : Bool) (change : Change) : List String :=
  (change.removed.map (side color Style.red "-" (change.index + 1))).toList ++
    (change.added.map (side color Style.green "+" (change.index + 1))).toList

/-- Changes as lines. -/
def renderDiff (color : Bool) (changes : List Change) : List String :=
  changes.flatMap (Change.render color)

/-- The change shows a number of too many digits. -/
def Change.hasLongNumber (change : Change) : Bool :=
  (change.removed.isSome || change.added.isSome) && Text.exceedsDigits (change.index + 1)

/-- Changes as lines, if all their numbers can be shown. -/
def renderDiff? (color : Bool) (changes : List Change) : Except Error (List String) :=
  if changes.any Change.hasLongNumber then .error .longNumber else .ok (renderDiff color changes)

/-- Two equal texts have no changes. -/
@[simp] theorem changesFrom_self (index : Nat) (lines : List String) :
    changesFrom index lines lines = [] := by
  induction lines generalizing index with
  | nil => simp [changesFrom]
  | cons line rest ih => simp [changesFrom, ih]

@[simp] theorem diff_self (text : String) : diff text text = [] :=
  changesFrom_self 0 _

end Bundler
