/-! # The parts of a double

A finite double is a whole number of at most 53 bits, scaled by a power of two, with a sign. Exact
questions about doubles are answered on these parts, in whole numbers.
-/

namespace MiniPascal

/-- A finite double: the sign, and the magnitude `significand * 2 ^ exponent`. -/
structure BinaryParts where
  negative : Bool
  significand : Nat
  exponent : Int
  /-- The double just below is only half as far away as the one above. -/
  closeBelow : Bool

inductive DoubleClass where
  | notANumber
  | infinite (negative : Bool)
  | finite (parts : BinaryParts)

def DoubleClass.of (x : Float) : DoubleClass :=
  let bits := x.toBits.toNat
  let negative := bits / Nat.pow 2 63 == 1
  let biased : Nat := bits / Nat.pow 2 52 % Nat.pow 2 11
  let fraction : Nat := bits % Nat.pow 2 52
  if biased = 2047 then
    if fraction = 0 then .infinite negative else .notANumber
  else if biased = 0 then .finite ⟨negative, fraction, -1074, false⟩
  else .finite ⟨negative, Nat.pow 2 52 + fraction, (biased : Int) - 1075, fraction = 0 ∧ 1 < biased⟩

/-- The integer nearest to a double on the side of zero; what is not finite has the least one. -/
def truncate (x : Float) : Int :=
  match DoubleClass.of x with
  | .finite parts =>
    let magnitude :=
      if 0 ≤ parts.exponent then parts.significand * Nat.pow 2 parts.exponent.toNat
      else parts.significand / Nat.pow 2 (-parts.exponent).toNat
    if parts.negative then -(magnitude : Int) else magnitude
  | _ => Int64.minValue.toInt

end MiniPascal
