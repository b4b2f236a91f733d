import Bundler.Text.Blank

/-!
# Whole numbers as text

`integer?` reads a whole number in plain form: digits behind an optional minus sign, with no zero in
front unless it is the only digit. `plainForm?` brings the other ways to write a whole number into
this form. It drops white space around the number, a plus sign, zeros in front, decimals that are
all zero, and single low lines between digits; a text that it refuses or leaves in another form is
no whole number. `readInteger` does both, and refuses numbers of too many digits.
-/

namespace Bundler.Text

/-- White space that may stand around a number. The four separator controls are blank, but not
here. -/
def isPadding (c : Char) : Bool :=
  isBlank c && !(0x1c ≤ c.toNat && c.toNat ≤ 0x1f)

/-- The digits as a number. -/
def digitsValue (digits : List Char) : Nat :=
  digits.foldl (fun value digit => 10 * value + (digit.toNat - '0'.toNat)) 0

/-- A natural number in plain form. -/
def natural? : List Char → Option Nat
  | ['0'] => some 0
  | c :: rest =>
    if (c :: rest).all Char.isDigit && c ≠ '0' then some (digitsValue (c :: rest)) else none
  | [] => none

/-- A whole number in plain form. -/
def integer? : List Char → Option Int
  | '-' :: digits => (natural? digits).map fun value => -(value : Int)
  | digits => (natural? digits).map Int.ofNat

/-- The text without padding around it. -/
def unpadded (text : List Char) : List Char :=
  ((text.dropWhile isPadding).reverse.dropWhile isPadding).reverse

/-- The text without a plus sign in front. A minus sign must not follow it. -/
def withoutPlus? : List Char → Option (List Char)
  | '+' :: '-' :: _ => none
  | '+' :: rest => some rest
  | text => some text

/-- What follows zeros in front, which may have low lines among them; `last` is the last of these
characters. One of them is kept if no digit follows. -/
def afterZeros? (last : Char) : List Char → Option (List Char)
  | [] => some [last]
  | c :: rest =>
    if c = '0' || c = '_' then afterZeros? c rest
    else if c.isDigit || c = '-' then some (c :: rest)
    else if c = '.' then some (last :: c :: rest)
    else none

/-- The text without zeros in front. -/
def withoutZeros? : List Char → Option (List Char)
  | '0' :: rest => afterZeros? '0' rest
  | c :: rest => if c.isDigit || c = '-' then some (c :: rest) else none
  | [] => none

/-- The text without decimals, if there are some and all are zero. -/
def withoutDecimals (text : List Char) : List Char :=
  match text.dropWhile (· ≠ '.') with
  | _ :: '0' :: more => if more.all (· = '0') then text.takeWhile (· ≠ '.') else text
  | _ => text

/-- Two low lines stand next to each other. -/
def hasDoubleLowLine : List Char → Bool
  | '_' :: '_' :: _ => true
  | _ :: rest => hasDoubleLowLine rest
  | [] => false

/-- The text without low lines, unless one stands at an end or next to another. -/
def withoutLowLines (text : List Char) : List Char :=
  if text.head? = some '_' || text.getLast? = some '_' || hasDoubleLowLine text then text
  else text.filter (· ≠ '_')

/-- The digits of a number without the zeros in front, the decimals and the low lines. -/
def plainDigits? (text : List Char) : Option (List Char) :=
  (withoutZeros? text).map fun rest => withoutLowLines (withoutDecimals rest)

/-- The plain form of a whole number. -/
def plainForm? (text : List Char) : Option (List Char) :=
  match withoutPlus? (unpadded text) with
  | none => none
  | some ('-' :: digits) => (plainDigits? digits).map ('-' :: ·)
  | some digits => plainDigits? digits

/-- The greatest number of digits that a number as text may have. -/
def digitLimit : Nat := 4300

/-- The digits that a plain number starts with, behind its minus sign. -/
def leadingDigits : List Char → List Char
  | '-' :: rest => rest.takeWhile Char.isDigit
  | text => text.takeWhile Char.isDigit

/-- The text starts like a plain number of too many digits. -/
def isTooLong (text : List Char) : Bool :=
  let digits := leadingDigits text
  digits.head? ≠ some '0' && digitLimit < digits.length

/-- Why a text is not read as a whole number. -/
inductive IntegerFault where
  | unreadable
  | tooLong
deriving DecidableEq, Repr

/-- The whole number that a text stands for. A text is called too long only if it is so as it
stands; one that is too long in plain form cannot be read. -/
def readInteger (text : String) : Except IntegerFault Int :=
  if isTooLong text.toList then .error .tooLong
  else
    match plainForm? text.toList with
    | none => .error .unreadable
    | some plain =>
      match integer? plain with
      | some number => if isTooLong plain then .error .unreadable else .ok number
      | none => .error .unreadable

/-- The number needs more digits than a number as text may have. -/
def exceedsDigits (number : Int) : Bool :=
  digitLimit < (Nat.toDigits 10 number.natAbs).length

end Bundler.Text
