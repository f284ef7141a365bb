import MiniPascal.Token.Kind
import MiniPascal.Text.Layout
import MiniPascal.Text.Quoted

/-! # Tokens -/

namespace MiniPascal

/-- A piece of program text and what it is. -/
structure Token where
  lexeme : List Char
  kind : TokenKind
deriving DecidableEq

namespace Token

def endOfInput : Token := ⟨[], .endOfInput⟩

def text (token : Token) : Text := .ofChars token.lexeme

/-- The mnemonic and the quoted lexeme. -/
def toText (token : Token) : Text := .join [token.kind.mnemonic, "(", token.text.quoted, ")"]

def logText (token : Token) : Text :=
  .join ["\t", token.kind.mnemonic, " | \t", .fourPlaces token.kind.code.toNat, " | \t", token.text]

end Token

end MiniPascal
