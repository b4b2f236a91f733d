import Bundler.Proofs.Messages
import Mathlib.Data.List.ReduceOption

/-!
# Differences as patches

The changes between two texts are a patch. Their lines, written one by one at their indices over the
lines of the old text, make the lines of the new one (`foldl_write_changesFrom`, `patch`), and the
changes taken backwards lead back (`changesFrom_inverse`). Nothing else is in them: the indices
increase (`pairwise_changesFrom`) and both sides of a change differ (`removed_ne_added`).

`diff_complete` has all this for texts. The lines determine a text, so the new text can be made from
the old one and the changes, and there are no changes exactly if the texts are equal.
-/

namespace Bundler

/-- The rows with what the change adds at its index. A row holds a line or none, and rows that are
missing up to the index are made. -/
def Change.write (rows : List (Option String)) (change : Change) : List (Option String) :=
  (rows.rightpad (change.index.toNat + 1) none).set change.index.toNat change.added

/-- The lines over which the changes are written, without the rows that hold none in the end. -/
def patch (changes : List Change) (lines : List String) : List String :=
  (changes.foldl Change.write (lines.map some)).reduceOption

/-- The change that leads back. -/
def Change.inverse (change : Change) : Change :=
  { change with removed := change.added, added := change.removed }

section
variable {index : Nat} {old new : List String} {change : Change}

/-! ## What changes are -/

/-- The changes start at the index. -/
theorem le_index_of_mem_changesFrom (h : change ∈ changesFrom index old new) :
    index ≤ change.index := by
  fun_induction changesFrom index old new with
  | case1 => cases h
  | case2 index line olds ih | case3 index line news ih | case5 index line olds other news _ _ ih =>
    rcases List.mem_cons.1 h with rfl | h
    · exact Int.le_refl _
    · have := ih h
      omega
  | case4 index olds line news _ ih =>
    have := ih h
    omega

/-- Their indices increase. -/
theorem pairwise_changesFrom (index : Nat) (old new : List String) :
    (changesFrom index old new).Pairwise (·.index < ·.index) := by
  fun_induction changesFrom index old new with
  | case1 => exact .nil
  | case2 index line olds ih | case3 index line news ih | case5 index line olds other news _ _ ih =>
    refine List.pairwise_cons.2 ⟨fun change hc => ?_, ih⟩
    have := le_index_of_mem_changesFrom hc
    dsimp only
    omega
  | case4 index olds line news _ ih => exact ih

/-- The sides of a change differ. -/
theorem removed_ne_added (h : change ∈ changesFrom index old new) :
    change.removed ≠ change.added := by
  fun_induction changesFrom index old new with
  | case1 => cases h
  | case2 index line olds ih | case3 index line news ih =>
    rcases List.mem_cons.1 h with rfl | h
    · simp
    · exact ih h
  | case4 index olds line news _ ih => exact ih h
  | case5 index line olds other news _ hne ih =>
    rcases List.mem_cons.1 h with rfl | h
    · simpa using hne
    · exact ih h

/-- Between the lists the other way round are the changes that lead back. -/
theorem changesFrom_inverse (index : Nat) (old new : List String) :
    changesFrom index new old = (changesFrom index old new).map .inverse := by
  fun_induction changesFrom index old new with
  | case1 => rw [changesFrom, List.map_nil]
  | case2 index line olds ih | case3 index line news ih =>
    rw [changesFrom, ih, List.map_cons]
    rfl
  | case4 index olds line news _ ih => rw [changesFrom, if_pos rfl, ih]
  | case5 index line olds other news _ hne ih =>
    rw [changesFrom, if_neg (Ne.symm hne), ih, List.map_cons]
    rfl

/-! ## Writing changes -/

/-- A change replaces the row at its index, or adds one behind the last. -/
theorem Change.write_append (rows rest : List (Option String)) (removed added : Option String) :
    Change.write (rows ++ rest) ⟨rows.length, removed, added⟩ = rows ++ added :: rest.tail := by
  have hpad : (rows ++ rest).rightpad (rows.length + 1) none =
      rows ++ rest.head?.join :: rest.tail := by
    cases rest <;> simp [List.rightpad]
  rw [Change.write, Int.toNat_natCast, hpad, List.set_append_right _ _ (Nat.le_refl _),
    Nat.sub_self, List.set_cons_zero]

/-- Written over the old lines, the changes make the new ones, and leave the rows of old lines
behind them empty. The rows stand in front of the lines and are not changed. -/
theorem foldl_write_changesFrom (rows : List (Option String)) (old new : List String) :
    (changesFrom rows.length old new).foldl Change.write (rows ++ old.map some) =
      rows ++ new.map some ++ List.replicate (old.length - new.length) none := by
  generalize hi : rows.length = index
  fun_induction changesFrom index old new generalizing rows with
  | case1 index => simp
  | case2 index line olds ih =>
    subst hi
    have := ih (rows ++ [none]) (by simp)
    rw [List.foldl_cons, Change.write_append]
    simpa [List.replicate_succ] using this
  | case3 index line news ih =>
    subst hi
    have := ih (rows ++ [some line]) (by simp)
    rw [List.foldl_cons, Change.write_append]
    simpa using this
  | case4 index olds line news _ ih =>
    subst hi
    simpa using ih (rows ++ [some line]) (by simp)
  | case5 index line olds other news _ hne ih =>
    subst hi
    have := ih (rows ++ [some other]) (by simp)
    rw [List.foldl_cons, Change.write_append]
    simpa using this

/-- The changes between two lists of lines patch the one into the other. -/
theorem patch_changesFrom (old new : List String) : patch (changesFrom 0 old new) old = new := by
  have h := foldl_write_changesFrom [] old new
  rw [List.nil_append, List.nil_append, List.length_nil] at h
  rw [patch, h, List.reduceOption_append, List.reduceOption_replicate_none, List.append_nil]
  simp [List.reduceOption]

end

/-- A text is determined by its lines. -/
theorem Text.splitLines_injective : Function.Injective Text.splitLines :=
  Function.LeftInverse.injective Text.joinLines_splitLines

/-- The changes between two texts are a complete patch that can be taken back. Their indices
increase and their sides differ, they make the lines of the new text out of those of the old one and
the other way round, and there are none exactly if the texts are equal. -/
theorem diff_complete (old new : String) :
    (diff old new).Pairwise (·.index < ·.index) ∧
    (∀ change ∈ diff old new, 0 ≤ change.index ∧ change.removed ≠ change.added) ∧
    patch (diff old new) (Text.splitLines old) = Text.splitLines new ∧
    patch ((diff old new).map .inverse) (Text.splitLines new) = Text.splitLines old ∧
    Function.Injective Text.splitLines ∧
    Text.joinLines (patch (diff old new) (Text.splitLines old)) = new ∧
    (diff old new = [] ↔ old = new) := by
  have hpatch : patch (diff old new) (Text.splitLines old) = Text.splitLines new :=
    patch_changesFrom _ _
  refine ⟨pairwise_changesFrom _ _ _, fun change hc => ⟨le_index_of_mem_changesFrom hc,
    removed_ne_added hc⟩, hpatch, ?_, Text.splitLines_injective, ?_, diff_eq_nil_iff⟩
  · rw [diff, ← changesFrom_inverse]
    exact patch_changesFrom _ _
  · rw [hpatch, Text.joinLines_splitLines]

end Bundler
