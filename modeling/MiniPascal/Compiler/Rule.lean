import MiniPascal.Compiler.Lexing

/-! # Grammar rules as computations

A grammar rule reads tokens, reports what is wrong with them, and writes symbols and quads as it
goes. `Session` is the state it works on. A rule that cannot go on reports an error and gives up;
the nearest enclosing statement then decides where to go on.

Giving up is an exception here. It stands for a flag that an error sets and that every rule asks for: while
it is set rules return, with -1 for a result, until a statement clears it. With a flag, a rule may still
take a few steps before it asks. They store nothing and report nothing, so the exception leaves them out.

The other two ways for a rule to break off never happen: reading a cell that does not exist, and
using up the bound on the depth of the recursion. They are kept apart so that this can be stated.
-/

namespace MiniPascal

/-- A compilation in progress. -/
structure Session extends Lexing where
  /-- The token being looked at. -/
  look : Token := .endOfInput
  quads : QuadTable
  /-- How many temporaries were made. -/
  temporaries : Nat := 0
  /-- The variables that were declared. -/
  declared : List Nat := []
  /-- The variables whose missing declaration was reported. -/
  warned : List Nat := []
  /-- How many errors the grammar rules reported. -/
  syntaxErrors : Nat := 0
  /-- Whether a table was too small; no statement is tried after that. -/
  exhausted : Bool := false
  /-- How many grammar rules are entered and not left. -/
  depth : Nat := 0

/-- Why a rule broke off. -/
inductive Abort where
  /-- An error was reported. -/
  | gaveUp
  | crashed (error : AccessError)
  | outOfFuel

/-- A computation on a session that may break off. -/
abbrev Rule := EStateM Abort Session

namespace Session

def note (s : Session) (event : Event) : Session := { s with journal := s.journal.note event }

def advance (s : Session) : Session :=
  let (token, lexing) := s.toLexing.next
  { s with toLexing := lexing, look := token.getD .endOfInput }

/-- The current token as messages name it. -/
def found (s : Session) : Text := if s.look.kind = .endOfInput then "end of file" else s.look.text

end Session

namespace Rule

variable {α : Type}

def advance : Rule Unit := modify Session.advance

def lookKind : Rule TokenKind := return (← get).look.kind

/-- Reports something that is no error. -/
def remark (diagnostic : Diagnostic) : Rule Unit := modify (·.note (.report diagnostic))

/-- Reports an error and gives up. -/
def fail (diagnostic : Diagnostic) : Rule α := do
  modify fun s => { s.note (.report diagnostic) with syntaxErrors := s.syntaxErrors + 1 }
  throw .gaveUp

/-- Reports that a table is too small and gives up. -/
def failFull (diagnostic : Diagnostic) : Rule α := do
  modify fun s => { s with exhausted := true }
  fail diagnostic

/-- Reports that something else was wanted than the current token. -/
def failExpecting (wanted : Text) : Rule α := do fail (.expected wanted (← get).found)

def ask (read : SymbolTable → Except AccessError α) : Rule α := do
  match read (← get).symbols with
  | .ok a => return a
  | .error error => throw (.crashed error)

def change (write : SymbolTable → Except AccessError SymbolTable) : Rule Unit := do
  let symbols ← ask write
  modify fun s => { s with symbols }

/-- Moves past a token of the given kind. -/
def expect (kind : TokenKind) : Rule Unit := do
  if (← lookKind) = kind then advance else failExpecting kind.spelling

/-- Runs the body of a grammar rule, noting when it is entered and when it is left. -/
def traced (rule : Nonterminal) (body : Rule α) : Rule α := fun s =>
  let leave (s : Session) : Session := { s.note (.leave (s.depth - 1) rule) with depth := s.depth - 1 }
  match body { s.note (.enter s.depth rule) with depth := s.depth + 1 } with
  | .ok a s => .ok a (leave s)
  | .error abort s => .error abort (leave s)

/-- Repeats a step, at most `fuel` times, until it says that nothing follows. -/
def iterate (step : α → Rule (Option α)) : (fuel : Nat) → α → Rule α
  | 0, _ => throw .outOfFuel
  | fuel + 1, a => do
    match ← step a with
    | none => return a
    | some b => iterate step fuel b

/-- Repeats a step that reads at least one token each time, until it says that nothing follows. -/
def repeated (step : α → Rule (Option α)) (a : α) : Rule α := fun s =>
  iterate step (s.unread.length + 2) a s

end Rule

end MiniPascal
