import Bundler.Proofs.Patching
import Mathlib.Algebra.Order.Ring.Int
import Mathlib.Data.List.DropRight

/-!
# Changes read back from their lines

A change is shown as one line for each of its sides, and nothing of it is lost: `readDiff` reads the
changes back. A line is read from the left, colour, padding, number and sign, and what is left is
the text, whatever is in it (`Side.read?_render`). Lines with one number belong to one change,
because the numbers of a list of changes increase (`gather_sides`).

`renderDiff?_recoverable` says so for all lists of changes whose numbers can be shown. Those of too
many digits cannot, and two lists with such numbers are not told apart (`long_numbers_alike`).
-/

namespace Bundler

/-- A side of a change: the number of the line, whether it was added, and its text. -/
structure Side where
  number : Int
  added : Bool
  line : String
deriving DecidableEq, Repr

namespace Side

/-- A side as it is shown. -/
def render (color : Bool) (side : Side) : String :=
  if side.added then Change.side color Style.green "+" side.number side.line
  else Change.side color Style.red "-" side.number side.line

/-- A line without the colour around it. The colours of both signs are equally long. -/
def plain (color : Bool) (shown : String) : List Char :=
  if color then (shown.toList.drop Style.red.length).rdrop Style.reset.length else shown.toList

/-- The side that a line shows. -/
def read? (color : Bool) (shown : String) : Option Side :=
  let text := (plain color shown).dropWhile (· = ' ')
  match text.dropWhile Char.isDigit with
  | ' ' :: sign :: ' ' :: line =>
    some ⟨Nat.ofDigitChars 10 (text.takeWhile Char.isDigit) 0, sign = '+', String.ofList line⟩
  | _ => none

/-- The change that has this side alone. -/
def change (side : Side) : Change :=
  if side.added then ⟨side.number - 1, none, some side.line⟩
  else ⟨side.number - 1, some side.line, none⟩

end Side

/-- The sides of a change, the removed one first. -/
def Change.sides (change : Change) : List Side :=
  (change.removed.map (⟨change.index + 1, false, ·⟩)).toList ++
    (change.added.map (⟨change.index + 1, true, ·⟩)).toList

/-- The changes that have the sides: two in a row with one number are those of one change. -/
def gather : List Side → List Change
  | [] => []
  | [side] => [side.change]
  | side :: next :: rest =>
    if side.number = next.number then
      ⟨side.number - 1, some side.line, some next.line⟩ :: gather rest
    else side.change :: gather (next :: rest)

/-- The changes that the lines show. -/
def readDiff (color : Bool) (lines : List String) : Option (List Change) :=
  (lines.mapM (Side.read? color)).map gather

/-- The changes are in the order of their lines, and each of them has a side. -/
structure Listed (changes : List Change) : Prop where
  increasing : changes.Pairwise (·.index < ·.index)
  nonneg : ∀ change ∈ changes, 0 ≤ change.index
  sided : ∀ change ∈ changes, change.removed.isSome ∨ change.added.isSome

/-! ## Lines -/

section
variable {color : Bool} {changes : List Change} {change : Change}

/-- The lines of changes show their sides. -/
theorem renderDiff_eq_map (color : Bool) (changes : List Change) :
    renderDiff color changes = (changes.flatMap Change.sides).map (Side.render color) := by
  rw [renderDiff, List.map_flatMap]
  congr 1
  funext change
  obtain ⟨index, _ | removed, _ | added⟩ := change <;> rfl

/-- What stands behind the padding of a number is read as the number, and as what follows it. -/
theorem digits_of_padLeft (number : Nat) (rest : List Char) :
    let text := ((Text.padLeft 4 (toString number)).toList ++ ' ' :: rest).dropWhile (· = ' ')
    text.takeWhile Char.isDigit = Nat.toDigits 10 number ∧
      text.dropWhile Char.isDigit = ' ' :: rest := by
  have hdigits : ∀ c ∈ Nat.toDigits 10 number, c.isDigit = true := fun c hc =>
    Nat.isDigit_of_mem_toDigits (by decide) (by decide) hc
  have htext : ((Text.padLeft 4 (toString number)).toList ++ ' ' :: rest).dropWhile (· = ' ') =
      Nat.toDigits 10 number ++ ' ' :: rest := by
    rw [Text.padLeft, String.toList_append, String.toList_ofList, List.append_assoc,
      List.dropWhile_append_of_pos (by simp), Nat.toString_eq_ofList_toDigits,
      String.toList_ofList]
    cases hd : Nat.toDigits 10 number with
    | nil => exact absurd hd Nat.toDigits_ne_nil
    | cons digit more =>
      have hdigit := hdigits digit (by simp [hd])
      have hne : digit ≠ ' ' := by
        rintro rfl
        exact absurd hdigit (by decide)
      simp [hne]
  dsimp only
  rw [htext, List.takeWhile_append_of_pos hdigits, List.dropWhile_append_of_pos hdigits]
  simp

/-- Without its colour a line has the number, the sign and the text of the side. -/
theorem Side.plain_render (color : Bool) (side : Side) :
    Side.plain color (side.render color) = (Text.padLeft 4 (toString side.number)).toList ++
      ' ' :: (if side.added then '+' else '-') :: ' ' :: side.line.toList := by
  obtain ⟨number, added, line⟩ := side
  cases color
  · cases added <;> simp [Side.plain, Side.render, Change.side]
  · have hcut : ∀ style text : String, style.length = Style.red.length →
        Side.plain true (style ++ text ++ Style.reset) = text.toList := by
      intro style text hlength
      have hdrop : (style.toList ++ text.toList ++ Style.reset.toList).drop Style.red.length =
          text.toList ++ Style.reset.toList := by
        rw [List.append_assoc, ← hlength, ← String.length_toList, List.drop_left]
      rw [Side.plain, if_pos rfl, String.toList_append, String.toList_append, hdrop,
        ← String.length_toList, List.rdrop_append_length]
    have hgreen : Style.green.length = Style.red.length := by decide
    cases added
    · simp [Side.render, Change.side, hcut Style.red]
    · simp [Side.render, Change.side, hcut Style.green _ hgreen]

/-- A side is read back from its line. -/
theorem Side.read?_render (color : Bool) {side : Side} (h : 0 ≤ side.number) :
    Side.read? color (side.render color) = some side := by
  have hplain := Side.plain_render color side
  obtain ⟨number, added, line⟩ := side
  obtain ⟨number, rfl⟩ := Int.eq_ofNat_of_zero_le h
  have hshown : toString (number : Int) = toString number := rfl
  dsimp only at hplain
  rw [hshown] at hplain
  obtain ⟨hnumber, hrest⟩ := digits_of_padLeft number
    ((if added then '+' else '-') :: ' ' :: line.toList)
  unfold Side.read?
  simp only [hplain, hnumber, hrest]
  cases added <;> simp [Nat.ofDigitChars_ten_toDigits]

/-- So all sides are. -/
theorem mapM_read?_render (color : Bool) {sides : List Side} (h : ∀ side ∈ sides, 0 ≤ side.number) :
    (sides.map (Side.render color)).mapM (Side.read? color) = some sides := by
  induction sides with
  | nil => rfl
  | cons side rest ih =>
    rw [List.map_cons, List.mapM_cons, Side.read?_render color (h side List.mem_cons_self),
      ih fun other ho => h other (List.mem_cons_of_mem _ ho)]
    rfl

/-! ## Sides -/

/-- The sides of a change have its number. -/
theorem Change.number_of_mem_sides {side : Side} (h : side ∈ change.sides) :
    side.number = change.index + 1 := by
  rcases List.mem_append.1 h with h | h
  · obtain ⟨line, -, rfl⟩ := Option.map_eq_some_iff.1 (Option.mem_toList.1 h)
    rfl
  · obtain ⟨line, -, rfl⟩ := Option.map_eq_some_iff.1 (Option.mem_toList.1 h)
    rfl

/-- A side alone is that of its change, if the next one has another number. -/
theorem gather_cons {side : Side} {rest : List Side}
    (h : ∀ next ∈ rest.head?, side.number ≠ next.number) :
    gather (side :: rest) = side.change :: gather rest := by
  cases rest with
  | nil => rfl
  | cons next rest => rw [gather, if_neg (h next rfl)]

/-- From their sides listed changes are gathered again. -/
theorem gather_sides (h : Listed changes) : gather (changes.flatMap Change.sides) = changes := by
  induction changes with
  | nil => rfl
  | cons change rest ih =>
    obtain ⟨hlater, hincreasing⟩ := List.pairwise_cons.1 h.increasing
    have hrest := ih ⟨hincreasing, fun other ho => h.nonneg other (List.mem_cons_of_mem _ ho),
      fun other ho => h.sided other (List.mem_cons_of_mem _ ho)⟩
    have hnext : ∀ next ∈ (rest.flatMap Change.sides).head?, change.index + 1 ≠ next.number := by
      intro next hn
      obtain ⟨other, ho, hside⟩ := List.mem_flatMap.1 (List.mem_of_mem_head? hn)
      have hlt := hlater other ho
      rw [Change.number_of_mem_sides hside]
      omega
    have hsided := h.sided change List.mem_cons_self
    obtain ⟨index, removed, added⟩ := change
    rw [List.flatMap_cons]
    cases removed with
    | none =>
      cases added with
      | none => simp at hsided
      | some new =>
        have hgather : gather (⟨index + 1, true, new⟩ :: rest.flatMap Change.sides) =
            Side.change ⟨index + 1, true, new⟩ :: rest := by rw [gather_cons hnext, hrest]
        simpa [Change.sides, Side.change] using hgather
    | some old =>
      cases added with
      | none =>
        have hgather : gather (⟨index + 1, false, old⟩ :: rest.flatMap Change.sides) =
            Side.change ⟨index + 1, false, old⟩ :: rest := by rw [gather_cons hnext, hrest]
        simpa [Change.sides, Side.change] using hgather
      | some new => simp [Change.sides, gather, hrest]

/-- The lines of listed changes show the changes. -/
theorem readDiff_renderDiff (color : Bool) (h : Listed changes) :
    readDiff color (renderDiff color changes) = some changes := by
  have hnumbers : ∀ side ∈ changes.flatMap Change.sides, 0 ≤ side.number := by
    intro side hs
    obtain ⟨change, hc, hside⟩ := List.mem_flatMap.1 hs
    have hnonneg := h.nonneg change hc
    rw [Change.number_of_mem_sides hside]
    omega
  rw [readDiff, renderDiff_eq_map, mapM_read?_render color hnumbers, Option.map_some,
    gather_sides h]

/-- The changes between two texts are listed. -/
theorem listed_diff (old new : String) : Listed (diff old new) where
  increasing := pairwise_changesFrom _ _ _
  nonneg _ hc := le_index_of_mem_changesFrom hc
  sided change hc := by
    have hne := removed_ne_added hc
    obtain ⟨index, _ | old, _ | new⟩ := change <;> simp_all

/-! ## Numbers that can be shown -/

/-- The numbers of the changes can be shown. -/
def Short (changes : List Change) : Prop :=
  ∀ change ∈ changes, change.index + 1 < 10 ^ Text.digitLimit

/-- A number needs too many digits exactly from a certain power of ten on. -/
theorem Text.exceedsDigits_iff {number : Int} (h : 0 ≤ number) :
    Text.exceedsDigits number = true ↔ 10 ^ Text.digitLimit ≤ number := by
  obtain ⟨number, rfl⟩ := Int.eq_ofNat_of_zero_le h
  have hlimit : 0 < Text.digitLimit := by decide
  rw [Text.exceedsDigits, decide_eq_true_iff, Int.natAbs_natCast]
  -- That the limit is a number of this size is not needed, and not looked at from here on.
  generalize Text.digitLimit = limit at hlimit ⊢
  rw [← Nat.not_le, Nat.length_toDigits_le_iff (by decide) hlimit, Nat.not_lt]
  exact_mod_cast Iff.rfl

/-- Listed changes are refused exactly if one of their numbers cannot be shown. -/
theorem renderDiff?_eq (color : Bool) (h : Listed changes) :
    (Short changes → renderDiff? color changes = .ok (renderDiff color changes)) ∧
      (¬ Short changes → renderDiff? color changes = .error .longNumber) := by
  have hlong : changes.any Change.hasLongNumber = true ↔ ¬ Short changes := by
    rw [List.any_eq_true, Short]
    simp only [not_forall, not_lt, exists_prop]
    refine exists_congr fun change => and_congr_right fun hc => ?_
    have hnonneg := h.nonneg change hc
    rw [Change.hasLongNumber, Bool.and_eq_true, Text.exceedsDigits_iff (by omega),
      and_iff_right (by simpa using h.sided change hc)]
  unfold renderDiff?
  constructor
  · intro hs
    rw [if_neg (fun hl => hlong.1 hl hs)]
  · intro hs
    rw [if_pos (hlong.2 hs)]

end

/-- Nothing is lost when changes are shown, in colours or not. If their numbers can be shown, listed
changes have lines, and the changes are read back from these; so two lists of such changes have the
same lines only if they are equal. Where a number cannot be shown, there are no lines. The changes
between two texts are listed. -/
theorem renderDiff?_recoverable (color : Bool) :
    (∀ changes, Listed changes → Short changes →
      ∃ lines, renderDiff? color changes = .ok lines ∧ readDiff color lines = some changes) ∧
    (∀ changes others, Listed changes → Short changes → Listed others → Short others →
      renderDiff? color changes = renderDiff? color others → changes = others) ∧
    (∀ changes, Listed changes → ¬ Short changes →
      renderDiff? color changes = .error .longNumber) ∧
    ∀ old new, Listed (diff old new) := by
  have hread : ∀ changes, Listed changes → Short changes →
      ∃ lines, renderDiff? color changes = .ok lines ∧ readDiff color lines = some changes :=
    fun changes h hs => ⟨_, (renderDiff?_eq color h).1 hs, readDiff_renderDiff color h⟩
  refine ⟨hread, fun changes others h hs h' hs' he => ?_,
    fun changes h hl => (renderDiff?_eq color h).2 hl, listed_diff⟩
  obtain ⟨lines, hlines, hchanges⟩ := hread changes h hs
  obtain ⟨shown, hshown, hothers⟩ := hread others h' hs'
  cases hlines.symm.trans (he.trans hshown)
  exact Option.some.inj (hchanges.symm.trans hothers)

/-- Changes whose lines imitate a number with its sign, and the end of a colour. The second number
is wider than the padding. -/
def imitating : List Change :=
  [⟨0, some "   2 + x", some ""⟩, ⟨54321, none, some "\x1b[0m   7 - "⟩]

/-- They are read back from their lines. -/
theorem renderDiff?_recoverable_imitating : Listed imitating ∧ Short imitating ∧
    ∃ lines, renderDiff? true imitating = .ok lines ∧ readDiff true lines = some imitating := by
  have hlisted : Listed imitating := ⟨by decide, by decide, by decide⟩
  have hsmall : ∀ change ∈ imitating, change.index + 1 < 10 ^ 5 := by decide
  have hshort : Short imitating := by
    intro change hc
    have hpower : (10 : Int) ^ 5 ≤ 10 ^ Text.digitLimit :=
      pow_le_pow_right₀ (by decide) (by decide)
    exact (hsmall change hc).trans_le hpower
  exact ⟨hlisted, hshort, (renderDiff?_recoverable true).1 imitating hlisted hshort⟩

/-- Changes with numbers of too many digits have no lines, so different ones are not told apart. -/
theorem long_numbers_alike :
    Listed [⟨10 ^ Text.digitLimit - 1, none, some "x"⟩] ∧
    renderDiff? false [⟨10 ^ Text.digitLimit - 1, none, some "x"⟩] = .error .longNumber ∧
    ¬ ∀ changes others, Listed changes → Listed others →
      renderDiff? false changes = renderDiff? false others → changes = others := by
  have hlisted : ∀ index : Int, 0 ≤ index → Listed [⟨index, none, some "x"⟩] := fun index hi =>
    ⟨List.pairwise_singleton _ _, by simpa using hi, by simp⟩
  have hrefused : ∀ index : Int, 0 ≤ index → 10 ^ Text.digitLimit ≤ index + 1 →
      renderDiff? false [⟨index, none, some "x"⟩] = .error .longNumber := by
    intro index hi hlong
    refine (renderDiff?_eq false (hlisted index hi)).2 fun hs => ?_
    have hshort := hs ⟨index, none, some "x"⟩ List.mem_cons_self
    exact absurd hlong (not_le.2 hshort)
  have hpositive : (1 : Int) ≤ 10 ^ Text.digitLimit := one_le_pow₀ (by decide)
  refine ⟨hlisted _ (by omega), hrefused _ (by omega) (by omega), fun hinjective => ?_⟩
  have hsame := hinjective _ _ (hlisted _ (by omega)) (hlisted (10 ^ Text.digitLimit) (by omega))
    ((hrefused (10 ^ Text.digitLimit - 1) (by omega) (by omega)).trans
      (hrefused (10 ^ Text.digitLimit) (by omega) (by omega)).symm)
  simp at hsame

end Bundler
