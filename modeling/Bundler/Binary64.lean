/-!
# Floating-point numbers as fractions

A finite floating-point number is a whole number times a power of two, and `shape` reads both from
its bits. So it can be rounded or compared in exact arithmetic (`whole?`).
-/

namespace Bundler.Binary64

/-- What the bits of a floating-point number stand for. A finite one has the magnitude
`significand * 2 ^ (power - 1075)`. -/
inductive Shape where
  | finite (negative : Bool) (significand power : Nat)
  | infinite (negative : Bool)
  | notANumber
deriving DecidableEq, Repr

/-- The shape of the number with the given bits. -/
def shapeOfBits (bits : Nat) : Shape :=
  let negative : Bool := bits >>> 63 = 1
  let exponent := (bits >>> 52) % 2048
  let fraction := bits % (1 <<< 52)
  if exponent = 2047 then if fraction = 0 then .infinite negative else .notANumber
  else if exponent = 0 then .finite negative fraction 1
  else .finite negative (fraction + (1 <<< 52)) exponent

/-- The shape of a number. -/
def shape (x : Float) : Shape :=
  shapeOfBits x.toBits.toNat

/-- The whole number that a shape stands for, if it stands for one. -/
def Shape.whole? : Shape → Option Int
  | .finite negative significand power =>
    let num := significand <<< power
    if num % (1 <<< 1075) = 0 then
      let magnitude : Int := num >>> 1075
      some (if negative then -magnitude else magnitude)
    else none
  | .infinite _ | .notANumber => none

/-- The shape is that of a number. -/
def Shape.isFinite : Shape → Bool
  | .finite .. => true
  | .infinite _ | .notANumber => false

end Bundler.Binary64
