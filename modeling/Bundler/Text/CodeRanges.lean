/-!
# Sets of code points

The character classes of this library are sets of code points that a published table lists as
ranges. `CodeRanges` is such a list, and `CodeRanges.mem_iff` says what it means: a character is in
the set when its code point lies in one of the ranges.
-/

namespace Bundler

/-- A set of code points as a list of ranges, both ends of each included. -/
abbrev CodeRanges := List (Nat × Nat)

namespace CodeRanges

/-- The code point of `c` lies in one of the ranges. -/
def mem (ranges : CodeRanges) (c : Char) : Bool :=
  ranges.any fun range => range.1 ≤ c.toNat && c.toNat ≤ range.2

theorem mem_iff {ranges : CodeRanges} {c : Char} :
    ranges.mem c = true ↔ ∃ range ∈ ranges, range.1 ≤ c.toNat ∧ c.toNat ≤ range.2 := by
  simp [mem]

@[simp] theorem mem_nil {c : Char} : mem [] c = false := rfl

@[simp] theorem mem_append {left right : CodeRanges} {c : Char} :
    mem (left ++ right) c = (mem left c || mem right c) := by
  simp [mem]

end CodeRanges

end Bundler
