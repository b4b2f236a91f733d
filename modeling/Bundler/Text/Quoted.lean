import Bundler.Text.Printable

/-!
# Quoted text

`quoted` is how a message shows a text it did not choose, such as a path: between quote marks, with
an escape for each character that would be lost or misread. The mark is the single one, unless the
text has single marks and no double ones, so that most texts need no escaped mark.
-/

namespace Bundler.Text

/-- The single and the double quote mark. -/
def singleMark : Char := '\x27'
@[inherit_doc singleMark] def doubleMark : Char := '\x22'

/-- The mark that `quoted` puts around a text. -/
def quoteMark (text : List Char) : Char :=
  if text.contains singleMark && !text.contains doubleMark then doubleMark else singleMark

/-- `n` in lower-case hexadecimal, with zeros in front up to `width` digits. -/
def hexadecimal (width n : Nat) : List Char :=
  let digits := Nat.toDigits 16 n
  List.replicate (width - digits.length) '0' ++ digits

/-- One character between quote marks: a mark and a backslash get a backslash, the common controls
their letter, any other unprintable character its code point in two, four or eight digits. -/
def escaped (mark c : Char) : List Char :=
  if c = mark || c = '\\' then ['\\', c]
  else if c = '\n' then ['\\', 'n']
  else if c = '\r' then ['\\', 'r']
  else if c = '\t' then ['\\', 't']
  else if isPrintable c then [c]
  else if c.toNat ≤ 0xff then '\\' :: 'x' :: hexadecimal 2 c.toNat
  else if c.toNat ≤ 0xffff then '\\' :: 'u' :: hexadecimal 4 c.toNat
  else '\\' :: 'U' :: hexadecimal 8 c.toNat

/-- A text between quote marks. -/
def quoted (text : String) : String :=
  let mark := quoteMark text.toList
  String.ofList (mark :: text.toList.flatMap (escaped mark) ++ [mark])

/-- A text of printable characters that holds no quote mark and no backslash is shown as it is. -/
theorem quoted_plain {text : String} (h : ∀ c ∈ text.toList,
    isPrintable c = true ∧ c ≠ singleMark ∧ c ≠ doubleMark ∧ c ≠ '\\') :
    (quoted text).toList = singleMark :: text.toList ++ [singleMark] := by
  have mark : quoteMark text.toList = singleMark := by
    have : singleMark ∉ text.toList := fun inside => (h _ inside).2.1 rfl
    simp [quoteMark, this]
  have same : ∀ {chars : List Char}, (∀ c ∈ chars, isPrintable c = true ∧ c ≠ singleMark ∧
      c ≠ doubleMark ∧ c ≠ '\\') → chars.flatMap (escaped singleMark) = chars := by
    intro chars
    induction chars with
    | nil => intro _; rfl
    | cons c rest ih =>
      intro plain
      obtain ⟨shown, single, -, slash⟩ := plain c (by simp)
      have control : ∀ d, isPrintable d = false → c ≠ d := by
        rintro d hidden rfl; simp [hidden] at shown
      have step : escaped singleMark c = [c] := by
        simp [escaped, single, slash, shown, control '\n' (by decide), control '\r' (by decide),
          control '\t' (by decide)]
      simp [step, ih fun d inside => plain d (by simp [inside])]
  simp [quoted, mark, same h]

end Bundler.Text
