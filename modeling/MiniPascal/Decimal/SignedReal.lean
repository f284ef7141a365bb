import MiniPascal.Decimal.Real
import MiniPascal.Decimal.Underscore

/-! # Reals given as text

The value of a real cell can be given as a text: a decimal, a number of base 16 with a power of two,
or a name for a value that is not finite. There may be a sign before it and underscores among its
digits.
-/

namespace MiniPascal

def hexDigitValue (c : Char) : Nat :=
  if isDigit c then digitValue c else c.toLower.toNat - 'a'.toNat + 10

def hexDigitsValue (digits : List Char) : Nat :=
  digits.foldl (fun total c => total * 16 + hexDigitValue c) 0

/-- The double nearest to `mantissa * 2 ^ exponent`; a half is five tenths. -/
def nearestBinary (mantissa : Nat) (exponent : Int) : Float :=
  if exponent < 0 then nearestReal (mantissa * Nat.pow 5 exponent.natAbs) exponent
  else nearestReal (mantissa * Nat.pow 2 exponent.natAbs) 0

/-- The double nearest to a number of base 16: digits, perhaps a point among them, and a power of
two. -/
def readHexReal? (chars : List Char) : Option Float :=
  let (whole, fraction, rest) := splitPoint isHexDigit chars
  let digits := whole ++ fraction
  match rest with
  | mark :: exponent =>
    if digits ≠ [] ∧ mark.toLower = 'p' then
      (readExponent? exponent).map fun e =>
        nearestBinary (hexDigitsValue digits) (e - 4 * fraction.length)
    else none
  | [] => none

/-- The double nearest to a number without sign and underscores. A number that is too large gives an
infinite double. -/
def readPlainReal? (chars : List Char) : Option Float :=
  match chars with
  | '0' :: mark :: digit :: rest =>
    if mark.toLower = 'x' then readHexReal? (digit :: rest)
    else (readDecimal? chars).map fun (mantissa, exponent) => nearestReal mantissa exponent
  | _ => (readDecimal? chars).map fun (mantissa, exponent) => nearestReal mantissa exponent

def readMagnitude? (chars : List Char) : Option Float :=
  let lower := chars.map Char.toLower
  if lower = "inf".toList ∨ lower = "infinity".toList then some (1.0 / 0.0)
  else if '_' ∈ chars ∧ !goodUnderscores chars then none
  else readPlainReal? (chars.filter (· ≠ '_'))

def readSignedReal? : List Char → Option Float
  | '-' :: rest => (readMagnitude? rest).map fun x => -x
  | '+' :: rest => readMagnitude? rest
  | chars => if chars.map Char.toLower = "nan".toList then some (0.0 / 0.0) else readMagnitude? chars

end MiniPascal
