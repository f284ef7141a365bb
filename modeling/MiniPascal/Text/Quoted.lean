import MiniPascal.Text.Basic
import MiniPascal.Text.Printable

/-! # Quoted texts and characters

Messages show texts in double quotes and single characters in single quotes. The quote itself and
the backslash are escaped, printable characters stand as they are, and everything else is written
as the shortest escape that names it.
-/

namespace MiniPascal

/-- The lower-case hexadecimal digits of a number, filled up with zeros to `width` places. -/
def hexDigits (width n : Nat) : List Char :=
  let digits := Nat.toDigits 16 n
  List.replicate (width - digits.length) '0' ++ digits

/-- The letter after the backslash for the control characters that have one. -/
def controlLetter? (c : Char) : Option Char :=
  match c.toNat with
  | 7 => some 'a'
  | 8 => some 'b'
  | 9 => some 't'
  | 10 => some 'n'
  | 11 => some 'v'
  | 12 => some 'f'
  | 13 => some 'r'
  | _ => none

/-- How a character is written between two `quote` marks. -/
def escapeChar (quote c : Char) : List Char :=
  if c = quote ∨ c = '\\' then ['\\', c]
  else if isPrintable c then [c]
  else match controlLetter? c with
    | some letter => ['\\', letter]
    | none =>
      if c.toNat < 0x20 ∨ c.toNat = 0x7F then '\\' :: 'x' :: hexDigits 2 c.toNat
      else if c.toNat < 0x10000 then '\\' :: 'u' :: hexDigits 4 c.toNat
      else '\\' :: 'U' :: hexDigits 8 c.toNat

/-- How a glyph is written between two `quote` marks. -/
def Glyph.escape (quote : Char) : Glyph → List Char
  | .char c => escapeChar quote c
  | .stray byte => '\\' :: 'x' :: hexDigits 2 byte.toNat

def Text.quoted (text : Text) : Text :=
  .ofChars ('"' :: text.flatMap (Glyph.escape '"') ++ ['"'])

def quotedChar (c : Char) : Text := .ofChars ('\'' :: escapeChar '\'' c ++ ['\''])

end MiniPascal
