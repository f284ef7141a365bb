import MiniPascal.Text.Basic

/-! # Numbers and columns in text

Whole numbers are written in decimal; columns are filled with blanks up to a width counted in
glyphs, so a stray byte takes one place like any character.
-/

namespace MiniPascal.Text

def ofNat (n : Nat) : Text := ofChars (Nat.toDigits 10 n)

/-- An integer in decimal, with a minus sign if it is negative. -/
def ofInt (n : Int) : Text :=
  if n < 0 then .char '-' :: ofNat n.natAbs else ofNat n.natAbs

/-- Fills up with `fill` on the left to at least `width` glyphs. -/
def padLeft (width : Nat) (fill : Char) (text : Text) : Text :=
  List.replicate (width - text.length) (.char fill) ++ text

/-- Fills up with blanks on the right to at least `width` glyphs. -/
def padRight (width : Nat) (text : Text) : Text :=
  text ++ List.replicate (width - text.length) (.char ' ')

/-- A number in at least four decimal places, filled up with zeros. -/
def fourPlaces (n : Nat) : Text := padLeft 4 '0' (ofNat n)

/-- A line of output: the text and a line end. -/
def line (text : Text) : Text := text ++ [.char '\n']

end MiniPascal.Text
