/-! # Text that may hold stray bytes

Names, text values and file contents come from outside as bytes, and nothing promises that the
bytes are UTF-8. A `Text` is the sequence of what the bytes spell: characters, and bytes that
belong to no character. Widths, quoting and the comparison of names work on this sequence; what a
writer receives is `Text.bytes`.
-/

namespace MiniPascal

/-- A run of bytes, as writers accept them. -/
abbrev Bytes := List UInt8

/-- One unit of text: a character, or a byte that belongs to no character. -/
inductive Glyph where
  | char (c : Char)
  | stray (byte : UInt8)
deriving DecidableEq

def Glyph.bytes : Glyph → Bytes
  | .char c => String.utf8EncodeChar c
  | .stray byte => [byte]

/-- The character a glyph counts as: a stray byte counts as the replacement character. -/
def Glyph.toChar : Glyph → Char
  | .char c => c
  | .stray _ => '\uFFFD'

/-- A text, unit by unit. -/
abbrev Text := List Glyph

namespace Text

def ofChars (chars : List Char) : Text := chars.map .char

def ofString (s : String) : Text := ofChars s.toList

instance : Coe String Text := ⟨ofString⟩

def bytes (text : Text) : Bytes := text.flatMap Glyph.bytes

/-- The characters a text counts as, with replacement characters for stray bytes. -/
def chars (text : Text) : List Char := text.map Glyph.toChar

def join (parts : List Text) : Text := parts.flatten

@[simp]
theorem chars_ofChars (chars : List Char) : Text.chars (ofChars chars) = chars := by
  induction chars with
  | nil => rfl
  | cons c rest ih => exact congrArg (c :: ·) ih

end Text

end MiniPascal
