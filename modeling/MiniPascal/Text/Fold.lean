import MiniPascal.Text.Basic
import MiniPascal.Text.UpperCase

/-! # Comparing names without regard to case

Two names are the same name when their folded forms agree. Stray bytes fold to the replacement
character, so names that differ only in such bytes are the same name too.
-/

namespace MiniPascal

/-- The form under which a name is stored and looked up. -/
def Text.fold (name : Text) : List Char := name.map fun glyph => upperCase glyph.toChar

/-- Two texts are the same name. -/
def Text.SameName (first second : Text) : Prop := first.fold = second.fold

instance (first second : Text) : Decidable (first.SameName second) :=
  inferInstanceAs (Decidable (first.fold = second.fold))

theorem Text.fold_ofChars (chars : List Char) : (Text.ofChars chars).fold = chars.map upperCase := by
  simp [Text.fold, Text.ofChars, Glyph.toChar, Function.comp_def]

end MiniPascal
