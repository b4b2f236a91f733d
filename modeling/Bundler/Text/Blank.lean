import Bundler.Text.CodeRanges

/-!
# White space

`isBlank` is the white space of this library: the separators of Unicode 14 and the control
characters that separate lines or fields. The mark U+FEFF and the spaces of no width are not in it.
`trim` removes it from both ends of a text and nothing else: what is left neither begins nor ends
with a blank (`head?_trim`, `getLast?_trim`), and a text with no blank at its ends is its own trim
(`trim_eq_self`).
-/

namespace Bundler.Text

/-- The code points of white space. -/
def blankRanges : CodeRanges :=
  [(0x0009, 0x000d), (0x001c, 0x0020), (0x0085, 0x0085), (0x00a0, 0x00a0), (0x1680, 0x1680),
   (0x2000, 0x200a), (0x2028, 0x2029), (0x202f, 0x202f), (0x205f, 0x205f), (0x3000, 0x3000)]

/-- A white space character. -/
def isBlank (c : Char) : Bool :=
  blankRanges.mem c

/-- What the core library calls white space is blank, the converse fails: U+00A0 is one example. -/
theorem isBlank_of_isWhitespace {c : Char} (h : c.isWhitespace = true) : isBlank c = true := by
  simp only [Char.isWhitespace, Bool.or_eq_true, decide_eq_true_eq] at h
  rcases h with ((rfl | rfl) | rfl) | rfl <;> decide

/-- The text without the blanks at its end. -/
def trimEnd (text : List Char) : List Char :=
  (text.reverse.dropWhile isBlank).reverse

/-- The text without the blanks at its start and at its end. -/
def trim (text : List Char) : List Char :=
  trimEnd (text.dropWhile isBlank)

@[simp] theorem trim_nil : trim [] = [] := rfl

/-- Dropping blanks at the end leaves a beginning of the text. -/
theorem trimEnd_isPrefix (text : List Char) : trimEnd text <+: text := by
  simpa [trimEnd] using List.reverse_prefix.2 (List.dropWhile_suffix (l := text.reverse) isBlank)

/-- A trimmed text does not begin with a blank. -/
theorem head?_trim (text : List Char) : (trim text).head?.all (!isBlank ·) = true := by
  have first := List.head?_dropWhile_not isBlank text
  obtain ⟨rest, h⟩ := trimEnd_isPrefix (text.dropWhile isBlank)
  cases shape : trim text with
  | nil => rfl
  | cons c chars =>
    rw [trim] at shape
    rw [← h, shape] at first
    simpa using first

/-- A trimmed text does not end with a blank. -/
theorem getLast?_trim (text : List Char) : (trim text).getLast?.all (!isBlank ·) = true := by
  have h := List.head?_dropWhile_not isBlank (text.dropWhile isBlank).reverse
  simp only [trim, trimEnd, List.getLast?_reverse]
  cases hd : (List.dropWhile isBlank (List.dropWhile isBlank text).reverse).head? with
  | none => rfl
  | some c => simp_all

/-- A text with no blank at either end is its own trim. -/
theorem trim_eq_self {text : List Char} (first : text.head?.all (!isBlank ·) = true)
    (last : text.getLast?.all (!isBlank ·) = true) : trim text = text := by
  have keep : ∀ {chars : List Char}, chars.head?.all (!isBlank ·) = true →
      chars.dropWhile isBlank = chars := by
    intro chars h
    cases chars with
    | nil => rfl
    | cons c rest => simp_all
  rw [trim, keep first, trimEnd, keep (by rwa [List.head?_reverse]), List.reverse_reverse]

/-- The string without the blanks at its ends. -/
def trimmed (text : String) : String :=
  String.ofList (trim text.toList)

@[simp] theorem toList_trimmed (text : String) : (trimmed text).toList = trim text.toList := by
  simp [trimmed]

end Bundler.Text
