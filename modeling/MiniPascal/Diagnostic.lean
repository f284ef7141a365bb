import MiniPascal.Failure
import MiniPascal.Token.Kind

/-! # What the compiler has to say

Every warning and every error has a constructor; the level decides whether it counts against the
program, and the message is what a reader sees.
-/

namespace MiniPascal

/-- How serious a message is. -/
inductive Level where
  | error
  | warning
  /-- The compiler says where it goes on after an error. -/
  | resync
deriving DecidableEq

def Level.name : Level → Text
  | error => "ERROR"
  | warning => "WARNING"
  | resync => "RESYNC"

/-- The longest parts of a lexeme that are kept. -/
structure LexemeLimits where
  identifier : Nat
  whole : Nat
  fraction : Nat
  exponent : Nat

/-- Identifiers keep 20 characters; numbers keep 6 digits before the point, 12 after it and 3 in the
exponent. -/
def lexemeLimits : LexemeLimits := ⟨20, 6, 12, 3⟩

/-- What the compiler reports. -/
inductive Diagnostic where
  | identifierCut (kept : List Char)
  | wholeCut (kept : List Char)
  | fractionCut (kept : List Char)
  | exponentCut (kept : List Char)
  | malformedNumber (lexeme : List Char)
  | openText (lexeme : List Char)
  | openComment
  | unreadable (failure : Failure)
  | noRoomFor (name : Text)
  | noRoomForQuad
  | neverRegistered (lexeme : List Char)
  /-- Something else was wanted than the token that was found. -/
  | expected (wanted found : Text)
  | programNameUsed (lexeme : List Char)
  | undeclared (lexeme : List Char)
  | declaredAgain (name : Text)
  | noStatementLeft
  | resumed (skipped : Nat) (lexeme : List Char) (line : Nat)

namespace Diagnostic

def level : Diagnostic → Level
  | identifierCut _ | wholeCut _ | fractionCut _ | exponentCut _ | undeclared _ | declaredAgain _ =>
    .warning
  | noStatementLeft | resumed .. => .resync
  | _ => .error

def message : Diagnostic → Text
  | identifierCut kept =>
    .join ["Identifier length > ", .ofNat lexemeLimits.identifier, ", truncated to ", .ofChars kept]
  | wholeCut kept =>
    .join ["Integer part longer than ", .ofNat lexemeLimits.whole, " digits, truncated to ", .ofChars kept]
  | fractionCut kept =>
    .join ["Fraction longer than ", .ofNat lexemeLimits.fraction, " digits, truncated to ", .ofChars kept]
  | exponentCut kept =>
    .join ["Exponent longer than ", .ofNat lexemeLimits.exponent, " digits, truncated to ", .ofChars kept]
  | malformedNumber lexeme => .join ["Malformed numeric literal ", .ofChars lexeme]
  | openText lexeme => .join ["Unterminated string ", .ofChars lexeme]
  | openComment => "Comment not terminated before End Of File"
  | unreadable failure => .join ["read failed: ", failure.message]
  | noRoomFor name => .join ["Symbol table full, cannot add ", name]
  | noRoomForQuad => "Quad table full, program too large"
  | neverRegistered lexeme => .join ["Symbol table full, ", .ofChars lexeme, " was never registered"]
  | expected wanted found => .join ["Expected ", wanted, " but found ", found]
  | programNameUsed lexeme =>
    .join ["Program name ", .ofChars lexeme, " cannot be used as a variable"]
  | undeclared lexeme => .join ["Undeclared identifier ", .ofChars lexeme]
  | declaredAgain name => .join ["Identifier ", name, " declared more than once"]
  | noStatementLeft => "no statement found before end of file"
  | resumed skipped lexeme line =>
    .join ["skipped ", .ofNat skipped, " token(s), resuming at ", .ofChars lexeme, " on line ",
      .ofNat line]

end Diagnostic

end MiniPascal
