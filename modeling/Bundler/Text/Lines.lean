/-!
# Lines of a text

A line feed ends a line. `unifyLineEnds` turns the two other marks, a carriage return and a
carriage return before a line feed, into a line feed, and leaves a text with no carriage return
alone (`unifyLineEnds_eq_self`). `splitLines` cuts a text at its line feeds. The empty text has no
lines at all, so it differs from the text of one empty line only in what follows, and `joinLines`
puts the lines of every text back together (`joinLines_splitLines`).
-/

namespace Bundler.Text

/-- Every line end as one line feed. -/
def unifyLineEnds : List Char → List Char
  | [] => []
  | '\r' :: '\n' :: rest => '\n' :: unifyLineEnds rest
  | c :: rest => (if c = '\r' then '\n' else c) :: unifyLineEnds rest

theorem unifyLineEnds_eq_self {text : List Char} (h : '\r' ∉ text) :
    unifyLineEnds text = text := by
  fun_induction unifyLineEnds text with
  | case1 => rfl
  | case2 => simp at h
  | case3 c rest _ ih =>
    obtain ⟨head, tail⟩ := not_or.1 (mt List.mem_cons.2 h)
    rw [ih tail, if_neg (Ne.symm head)]

/-- No carriage return is left. -/
theorem not_mem_unifyLineEnds (text : List Char) : '\r' ∉ unifyLineEnds text := by
  fun_induction unifyLineEnds text with
  | case1 => simp
  | case2 rest ih => simp [ih]
  | case3 c rest _ ih =>
    simp only [List.mem_cons, not_or]
    exact ⟨by split <;> simp_all [eq_comm], ih⟩

/-- The number of line feeds. -/
def lineFeeds (text : List Char) : Nat :=
  text.count '\n'

/-- The lines of a text. A line feed at the end is followed by an empty line. -/
def splitLines (text : String) : List String :=
  if text = "" then [] else (text.toList.splitOn '\n').map String.ofList

/-- The text of which these are the lines. -/
def joinLines (lines : List String) : String :=
  "\n".intercalate lines

@[simp] theorem splitLines_empty : splitLines "" = [] := rfl

/-- The lines of a text, joined, are the text. -/
@[simp] theorem joinLines_splitLines (text : String) : joinLines (splitLines text) = text := by
  unfold splitLines joinLines
  split
  · next h => simp [h]
  · apply String.toList_inj.1
    rw [String.toList_intercalate, List.map_map]
    have : String.toList ∘ String.ofList = id := by funext chars; simp
    rw [this, List.map_id]
    exact List.intercalate_splitOn '\n'

end Bundler.Text
