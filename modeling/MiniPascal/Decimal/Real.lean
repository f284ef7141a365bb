import MiniPascal.Decimal.Shortest
import MiniPascal.Text.Layout
import MiniPascal.Decimal.Whole

/-! # Reals as text

A real is written with the fewest digits that read back. It is written positionally when the
exponent of its first digit is at least -4 and below 6, and as digits with a signed exponent of at
least two places otherwise.
-/

namespace MiniPascal

/-- Where positional notation ends, and how wide an exponent is at least. -/
structure RealLayout where
  leastPositional : Int
  leastScientific : Int
  exponentPlaces : Nat

/-- Reals are positional from 10^-4 up to below 10^6; exponents have two places or more. -/
def realLayout : RealLayout := ⟨-4, 6, 2⟩

/-- A sign, one digit, the other digits after a point, and the exponent. -/
def RealLayout.scientific (layout : RealLayout) (digits : List Char) (exponent : Int) : List Char :=
  let places := Nat.toDigits 10 exponent.natAbs
  digits.take 1 ++ (if digits.length ≤ 1 then [] else '.' :: digits.drop 1) ++
    ['e', if exponent < 0 then '-' else '+'] ++
    List.replicate (layout.exponentPlaces - places.length) '0' ++ places

/-- The digits around a point that stands `point` places after the first digit's left side. -/
def positional (digits : List Char) (point : Int) : List Char :=
  let whole := if point ≤ 0 then ['0']
    else digits.take point.toNat ++ List.replicate (point.toNat - digits.length) '0'
  let fraction := List.replicate (-point).toNat '0' ++ digits.drop point.toNat
  whole ++ if fraction = [] then [] else '.' :: fraction

def RealLayout.write (layout : RealLayout) (d : Decimal) : List Char :=
  let digits := Nat.toDigits 10 d.digits
  let first := d.exponent + digits.length - 1
  if first < layout.leastPositional ∨ layout.leastScientific ≤ first then
    layout.scientific digits first
  else positional digits (first + 1)

def realText (x : Float) : Text :=
  match DoubleClass.of x with
  | .notANumber => "NaN"
  | .infinite negative => if negative then "-Inf" else "+Inf"
  | .finite parts =>
    let magnitude := if parts.significand = 0 then ['0'] else realLayout.write (.shortest parts)
    .ofChars (if parts.negative then '-' :: magnitude else magnitude)

/-- The double nearest to `mantissa * 10 ^ exponent`. -/
def nearestReal (mantissa : Nat) (exponent : Int) : Float :=
  if exponent < 0 then Float.ofScientific mantissa true exponent.natAbs
  else Float.ofScientific mantissa false exponent.natAbs

def isFiniteReal (x : Float) : Bool := !x.isNaN && !x.isInf

/-- The value of a non-empty row of digits after an exponent mark. A value of five places is beyond
every double already, so further places are not counted. -/
def exponentValue? (digits : List Char) : Option Nat :=
  if digits ≠ [] ∧ digits.all isDigit then
    some (digits.foldl (fun total c => if total < 10000 then total * 10 + digitValue c else total) 0)
  else none

/-- A signed row of digits, as after an exponent mark. -/
def readExponent? : List Char → Option Int
  | '-' :: digits => (exponentValue? digits).map fun n => -n
  | '+' :: digits => (exponentValue? digits).map fun n => n
  | digits => (exponentValue? digits).map fun n => n

/-- The digits before a point, those after it, and what follows them. -/
def splitPoint (isDigitHere : Char → Bool) (chars : List Char) :
    List Char × List Char × List Char :=
  let whole := chars.takeWhile isDigitHere
  match chars.dropWhile isDigitHere with
  | '.' :: rest => (whole, rest.takeWhile isDigitHere, rest.dropWhile isDigitHere)
  | rest => (whole, [], rest)

/-- Cutting a number at its point loses nothing but the point. -/
theorem eq_of_splitPoint {isDigitHere : Char → Bool} {chars whole fraction rest : List Char}
    (parts : splitPoint isDigitHere chars = (whole, fraction, rest)) :
    chars = whole ++ fraction ++ rest ∨ chars = whole ++ '.' :: fraction ++ rest := by
  have all := List.takeWhile_append_dropWhile (p := isDigitHere) (l := chars)
  unfold splitPoint at parts
  split at parts
  · rename_i after pointed
    simp only [Prod.mk.injEq] at parts
    obtain ⟨rfl, rfl, rfl⟩ := parts
    rw [pointed] at all
    right
    simpa using all.symm
  · simp only [Prod.mk.injEq] at parts
    obtain ⟨rfl, rfl, rfl⟩ := parts
    left
    simp

/-- The digits and the exponent of a decimal: digits, perhaps a point among them, perhaps an
exponent. -/
def readDecimal? (chars : List Char) : Option (Nat × Int) :=
  let (whole, fraction, rest) := splitPoint isDigit chars
  let digits := whole ++ fraction
  if digits = [] then none
  else match rest with
    | [] => some (digitsValue digits, -fraction.length)
    | mark :: exponent =>
      if mark = 'e' ∨ mark = 'E' then
        (readExponent? exponent).map fun e => (digitsValue digits, e - fraction.length)
      else none

/-- The double nearest to an unsigned decimal, unless that is too large for one. -/
def readReal? (chars : List Char) : Option Float :=
  (readDecimal? chars).bind fun (mantissa, exponent) =>
    let x := nearestReal mantissa exponent
    if isFiniteReal x then some x else none

end MiniPascal
