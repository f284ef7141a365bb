/-! # Reading whole numbers

A typed integer is an optional sign followed by decimal digits and nothing else, and must fit in a
64-bit word.
-/

namespace MiniPascal

def isDigit (c : Char) : Bool := '0' ≤ c && c ≤ '9'

def digitValue (c : Char) : Nat := c.toNat - '0'.toNat

def digitsValue (digits : List Char) : Nat :=
  digits.foldl (fun total c => total * 10 + digitValue c) 0

/-- The integers that fit in a 64-bit word. -/
def fitsWord (n : Int) : Bool := Int64.minValue.toInt ≤ n && n ≤ Int64.maxValue.toInt

/-- The word that holds an integer, if one does. -/
def word? (n : Int) : Option Int64 := if fitsWord n then some (Int64.ofInt n) else none

/-- The natural number that a non-empty row of digits denotes. -/
def readDigits? (chars : List Char) : Option Nat :=
  if chars ≠ [] ∧ chars.all isDigit then some (digitsValue chars) else none

/-- The integer a text denotes, if it is an optional sign and digits and fits in a word. -/
def readWhole? : List Char → Option Int64
  | '-' :: digits => (readDigits? digits).bind fun n => word? (-n)
  | '+' :: digits => (readDigits? digits).bind fun n => word? n
  | digits => (readDigits? digits).bind fun n => word? n

end MiniPascal
