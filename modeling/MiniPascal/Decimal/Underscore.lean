import MiniPascal.Decimal.Whole

/-! # Underscores among digits

A number may have underscores that set groups of digits apart. Each of them stands between two
digits; the mark of a base counts as a digit.
-/

namespace MiniPascal

def isHexDigit (c : Char) : Bool := isDigit c || ('a' ≤ c.toLower && c.toLower ≤ 'f')

/-- What stood before an underscore. -/
inductive BeforeUnderscore where
  | start
  | digit
  | underscore
  | other
deriving DecidableEq

/-- Whether every underscore stands between digits. -/
def underscoresFit (isDigitHere : Char → Bool) : BeforeUnderscore → List Char → Bool
  | before, [] => before ≠ .underscore
  | before, c :: rest =>
    if isDigitHere c then underscoresFit isDigitHere .digit rest
    else if c = '_' then before = .digit && underscoresFit isDigitHere .underscore rest
    else before ≠ .underscore && underscoresFit isDigitHere .other rest

/-- Whether the underscores of a number without sign stand where they may. -/
def goodUnderscores (chars : List Char) : Bool :=
  match chars with
  | '0' :: mark :: rest =>
    match mark.toLower with
    | 'x' => underscoresFit isHexDigit .digit rest
    | 'b' | 'o' => underscoresFit isDigit .digit rest
    | _ => underscoresFit isDigit .start chars
  | chars => underscoresFit isDigit .start chars

end MiniPascal
