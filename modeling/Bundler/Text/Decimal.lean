import Bundler.Binary64

/-!
# Numbers as decimal text

`roundHalfEven` divides two natural numbers and rounds the quotient to the nearest whole number, a
tie to the even one (`roundHalfEven_near` says that it is never more than half a unit away).
`fixedTwo` writes a floating-point number with two decimals: the exact value of the number, times
one hundred, is rounded so. `padLeft` right-aligns a text.
-/

namespace Bundler.Text

/-- The whole number nearest to `num / den`; of two, the even one. -/
def roundHalfEven (num den : Nat) : Nat :=
  let quotient := num / den
  let twice := 2 * (num % den)
  if twice < den then quotient
  else if den < twice then quotient + 1
  else if quotient % 2 = 0 then quotient else quotient + 1

/-- The rounded quotient is at most half a unit away from the true one. -/
theorem roundHalfEven_near {num den : Nat} (h : 0 < den) :
    2 * num ≤ 2 * (roundHalfEven num den * den) + den ∧
      2 * (roundHalfEven num den * den) ≤ 2 * num + den := by
  have whole : num / den * den + num % den = num := Nat.div_add_mod' num den
  have small := Nat.mod_lt num h
  simp only [roundHalfEven]
  split
  · omega
  · split
    · rw [Nat.add_mul]; omega
    · split
      · omega
      · rw [Nat.add_mul]; omega

/-- `n` hundredths: the whole part, a point and two digits. -/
def hundredths (n : Nat) : String :=
  let cents := n % 100
  toString (n / 100) ++ "." ++ toString (cents / 10) ++ toString (cents % 10)

/-- A number with two decimals. -/
def fixedTwo (x : Float) : String :=
  let sign (negative : Bool) := if negative then "-" else ""
  match Binary64.shape x with
  | .finite negative significand power =>
    sign negative ++ hundredths (roundHalfEven ((significand * 100) <<< power) (1 <<< 1075))
  | .infinite negative => sign negative ++ "inf"
  | .notANumber => "nan"

/-- The text after as many spaces as bring it to `width` characters. -/
def padLeft (width : Nat) (text : String) : String :=
  String.ofList (List.replicate (width - text.length) ' ') ++ text

end Bundler.Text
