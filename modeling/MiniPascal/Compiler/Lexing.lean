import MiniPascal.Compiler.Journal
import MiniPascal.Token.Scan

/-! # Handing over tokens

Tokens are handed over one at a time. When an identifier or a literal is handed over for the first
time, its symbol gets a cell; when the table is full it gets none, and that is an error.
-/

namespace MiniPascal

/-- Tokens still to be handed over, and the symbols of those already handed over. -/
structure Lexing where
  unread : List Scanned
  /-- The number of the last line read. -/
  line : Nat := 0
  symbols : SymbolTable
  /-- How many errors were reported in the tokens. -/
  lexicalErrors : Nat := 0
  journal : Journal

namespace Lexing

def start (quote : Char) (capacity : Nat) (watch : Watch) (input : Input) : Lexing :=
  let (lines, failure) := input.lines
  { unread := scan quote lines failure, symbols := .empty capacity, journal := { watch } }

def report (lexing : Lexing) (diagnostic : Diagnostic) : Lexing :=
  { lexing with
    lexicalErrors := lexing.lexicalErrors + if diagnostic.level = .error then 1 else 0
    journal := lexing.journal.note (.report diagnostic) }

/-- Takes note of what happened on the way to a token. -/
def observe (lexing : Lexing) : ScanNote → Lexing
  | .line number text => { lexing with journal := lexing.journal.note (.line number text) }
  | .issue diagnostic => lexing.report diagnostic

def register (lexing : Lexing) (name : Text) (registration : Registration) : Lexing :=
  match lexing.symbols.add name registration.usage registration.value with
  | (some _, symbols) => { lexing with symbols }
  | (none, _) => lexing.report (.noRoomFor name)

def handOver (lexing : Lexing) (found : Lexeme) : Lexing :=
  let lexing := match found.registration with
    | some registration => lexing.register found.token.text registration
    | none => lexing
  { lexing with journal := lexing.journal.note (.token found.token) }

def next (lexing : Lexing) : Option Token × Lexing :=
  match lexing.unread with
  | [] => (none, lexing)
  | item :: unread =>
    let lexing := item.notes.foldl observe { lexing with unread, line := item.line }
    match item.lexeme with
    | some found => (some found.token, lexing.handOver found)
    | none => (none, lexing)

/-- All tokens still to come, each with the line it was found on. -/
def all : (fuel : Nat) → Lexing → List (Token × Nat) × Lexing
  | 0, lexing => ([], lexing)
  | fuel + 1, lexing =>
    match lexing.next with
    | (none, lexing) => ([], lexing)
    | (some token, lexing) =>
      let (tokens, last) := all fuel lexing
      ((token, lexing.line) :: tokens, last)

def ended (lexing : Lexing) : Bool := lexing.unread.isEmpty

end Lexing

end MiniPascal
