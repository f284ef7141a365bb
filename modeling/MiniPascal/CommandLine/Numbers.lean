import MiniPascal.Decimal.Real
import MiniPascal.Decimal.Underscore

/-! # Numbers on the command line

An integer may be written in decimal, or in another base after `0x`, `0b`, `0o` or `0`, with
underscores between digits. A duration is a sum of decimal numbers with units.
-/

namespace MiniPascal

inductive NumberError where
  | malformed
  | outOfRange
deriving DecidableEq

/-- The value of a digit in any base up to 36. -/
def anyDigit? (c : Char) : Option Nat :=
  if isDigit c then some (digitValue c)
  else
    let lower := c.toLower
    if 'a' ≤ lower ∧ lower ≤ 'z' then some (lower.toNat - 'a'.toNat + 10) else none

/-- The base a number is written in, and its digits. -/
def splitBase (chars : List Char) : Nat × List Char :=
  match chars with
  | '0' :: mark :: digit :: rest =>
    match mark.toLower with
    | 'b' => (2, digit :: rest)
    | 'o' => (8, digit :: rest)
    | 'x' => (16, digit :: rest)
    | _ => (8, mark :: digit :: rest)
  | '0' :: rest => (8, rest)
  | chars => (10, chars)

/-- Reads digits with underscores among them; a value beyond `2 ^ 64` is out of range at once. -/
def readBase (base : Nat) : (value : Nat) → List Char → Except NumberError Nat
  | value, [] => .ok value
  | value, c :: rest =>
    if c = '_' then readBase base value rest
    else match anyDigit? c with
      | none => .error .malformed
      | some digit =>
        if base ≤ digit then .error .malformed
        else
          let value := value * base + digit
          if Nat.pow 2 64 ≤ value then .error .outOfRange else readBase base value rest

def readUnsigned (chars : List Char) : Except NumberError Nat :=
  if chars = [] then .error .malformed
  else
    let (base, digits) := splitBase chars
    match readBase base 0 digits with
    | .error error => .error error
    | .ok value => if '_' ∈ chars ∧ !goodUnderscores chars then .error .malformed else .ok value

def readInteger (chars : List Char) : Except NumberError Int64 :=
  let (negative, rest) := match chars with
    | '-' :: rest => (true, rest)
    | '+' :: rest => (false, rest)
    | rest => (false, rest)
  match readUnsigned rest with
  | .error error => .error error
  | .ok value =>
    match word? (if negative then -(value : Int) else value) with
    | some word => .ok word
    | none => .error .outOfRange

/-- The units of durations in nanoseconds. -/
def durationUnits : List (List Char × Nat) :=
  [(['n', 's'], 1), (['u', 's'], 1000), (['µ', 's'], 1000), (['μ', 's'], 1000),
    (['m', 's'], 1000000), (['s'], 1000000000), (['m'], 60000000000), (['h'], 3600000000000)]

/-- No part of a duration has more nanoseconds than this. -/
def durationLimit : Nat := Nat.pow 2 63

/-- The digits of a decimal after its point, read as a whole number, and the power of ten that they
count in. Digits that no longer fit are passed over. -/
def readFraction : (value : Nat) → (scale : Float) → List Char → Nat × Float
  | value, scale, [] => (value, scale)
  | value, scale, c :: rest =>
    let next := value * 10 + digitValue c
    if (durationLimit - 1) / 10 < value ∨ durationLimit < next then (value, scale)
    else readFraction next (scale * 10) rest

/-- The whole nanoseconds in a fraction of a unit, computed in doubles. -/
def fractionOf (unit : Nat) (fraction : Nat × Float) : Nat :=
  (truncate (Float.ofNat fraction.1 * (Float.ofNat unit / fraction.2))).toNat

/-- Reads numbers with units and adds them up, with at most `fuel` of them. -/
def readUnits : (fuel : Nat) → (total : Nat) → List Char → Option Nat
  | _, total, [] => some total
  | 0, _, _ => none
  | fuel + 1, total, chars =>
    let (whole, fraction, rest) := splitPoint isDigit chars
    let isUnitChar := fun c => !(isDigit c || c == '.')
    let unitName := rest.takeWhile isUnitChar
    if (whole = [] ∧ fraction = []) ∨ durationLimit < digitsValue whole then none
    else match durationUnits.lookup unitName with
      | none => none
      | some unit =>
        let value := digitsValue whole * unit + fractionOf unit (readFraction 0 1 fraction)
        if durationLimit / unit < digitsValue whole ∨ durationLimit < value ∨
            durationLimit < total + value then none
        else readUnits fuel (total + value) (rest.dropWhile isUnitChar)

/-- Reads a duration in nanoseconds. -/
def readDuration? (chars : List Char) : Option Int :=
  let (negative, rest) := match chars with
    | '-' :: rest => (true, rest)
    | '+' :: rest => (false, rest)
    | rest => (false, rest)
  if rest = ['0'] then some 0
  else if rest = [] then none
  else match readUnits rest.length 0 rest with
    | none => none
    | some total =>
      if negative then some (-total)
      else if total = durationLimit then none
      else some total

end MiniPascal
