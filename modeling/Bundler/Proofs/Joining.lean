import Bundler.Resolver

/-!
# Joining the texts that are not empty

The text of a module and all that it imports is joined from texts that were joined the same way
(`combine`). `joinFilled` joins the texts that are not empty, and it does not matter in which groups
they are joined: the join of two lists follows from the joins of each (`joinFilled_append`), because
the join of two texts (`above`) is associative and leaves out an empty text. `combine_eq` says that
the text of a module is such a join, where its own code, which is trimmed, is taken as it is
(`Source.trimmed_without`).
-/

namespace Bundler

namespace Text

/-- Two texts on lines of their own, the first above the second; an empty text takes no line. -/
def above (upper lower : String) : String :=
  if upper = "" then lower else if lower = "" then upper else upper ++ "\n" ++ lower

/-- The texts that are not empty, one after the other on lines of their own. -/
def joinFilled (texts : List String) : String :=
  joinLines (texts.filter (· ≠ ""))

@[simp] theorem empty_above (text : String) : above "" text = text := rfl

@[simp] theorem above_empty (text : String) : above text "" = text := by
  unfold above; split <;> simp_all

/-- Only empty texts leave nothing when they are put one above the other. -/
theorem above_eq_empty_iff {upper lower : String} :
    above upper lower = "" ↔ upper = "" ∧ lower = "" := by
  unfold above
  split
  · simp_all
  · split <;> simp_all [String.append_eq_empty_iff]

/-- Of three texts it does not matter which two are put together first. -/
theorem above_assoc (first second third : String) :
    above (above first second) third = above first (above second third) := by
  by_cases h1 : first = ""
  · simp [h1]
  by_cases h2 : second = ""
  · simp [h2]
  by_cases h3 : third = ""
  · simp [h3]
  have h12 : above first second ≠ "" := by simp [above_eq_empty_iff, h1]
  have h23 : above second third ≠ "" := by simp [above_eq_empty_iff, h2]
  rw [above, if_neg h12, if_neg h3, above, if_neg h1, if_neg h2, above.eq_def first, if_neg h1,
    if_neg h23, above, if_neg h2, if_neg h3]
  simp only [String.append_assoc]

@[simp] theorem joinFilled_nil : joinFilled [] = "" := rfl

/-- A text is joined by putting it above the join of the rest. -/
theorem joinFilled_cons (text : String) (rest : List String) :
    joinFilled (text :: rest) = above text (joinFilled rest) := by
  unfold joinFilled joinLines
  by_cases h : text = ""
  · simp [h]
  rw [List.filter_cons_of_pos (by simpa using h)]
  cases hr : rest.filter (· ≠ "") with
  | nil => simp
  | cons next more =>
    have hn : next ≠ "" := by
      have : next ∈ rest.filter (· ≠ "") := hr ▸ List.mem_cons_self
      simpa using (List.mem_filter.1 this).2
    have hne : "\n".intercalate (next :: more) ≠ "" := by
      cases more with
      | nil => simpa using hn
      | cons _ _ => simp [String.append_eq_empty_iff, hn]
    rw [String.intercalate_cons_cons, above, if_neg h, if_neg hne]

@[simp] theorem joinFilled_singleton (text : String) : joinFilled [text] = text := by
  simp [joinFilled_cons]

/-- Two lists of texts are joined by joining each of them. -/
theorem joinFilled_append (texts others : List String) :
    joinFilled (texts ++ others) = above (joinFilled texts) (joinFilled others) := by
  induction texts with
  | nil => simp
  | cons text rest ih => rw [List.cons_append, joinFilled_cons, ih, joinFilled_cons, above_assoc]

/-- Trimming a trimmed text changes nothing. -/
theorem trim_trim (text : List Char) : trim (trim text) = trim text :=
  trim_eq_self (head?_trim text) (getLast?_trim text)

end Text

/-- What is left of a source without its declarations is trimmed already. -/
@[simp] theorem Source.trimmed_without (content : String) (declarations : List Source.Import) :
    Text.trimmed (Source.without content declarations) = Source.without content declarations := by
  rw [Text.trimmed, Source.without, String.toList_ofList, Text.trim_trim]

/-- The text of a module and its imports is the imported texts above the trimmed content. -/
theorem combine_eq (content : String) (inlined : Inlined) :
    combine content inlined =
      Text.above (Text.joinFilled (inlined.map (·.2))) (Text.trimmed content) := by
  rw [← Text.joinFilled_singleton (Text.trimmed content), ← Text.joinFilled_append]
  rfl

end Bundler
