import MiniPascal.Diagnostic
import MiniPascal.Token.Basic

/-! # What can be watched during a compilation

A compilation keeps a journal of what its user asked to see: the lines as they are read, the tokens,
the grammar rules as they are entered and left, the diagnostics, and the verdict.
-/

namespace MiniPascal

/-- The grammar rules, as a trace names them. -/
inductive Nonterminal where
  | program | progIdentifier | block | varDeclarations | simpleType | blockBody | statement
  | assignment | ifStatement | whileStatement | repeatStatement | forStatement | writeln | readln
  | relExpression | simpleExpression | term | factor | literal | variableUse
deriving DecidableEq

def Nonterminal.name : Nonterminal → Text
  | program => "Program"
  | progIdentifier => "ProgIdentifier"
  | block => "Block"
  | varDeclarations => "VarDeclarations"
  | simpleType => "SimpleType"
  | blockBody => "BlockBody"
  | statement => "Statement"
  | assignment => "Assignment"
  | ifStatement => "IfStatement"
  | whileStatement => "WhileStatement"
  | repeatStatement => "RepeatStatement"
  | forStatement => "ForStatement"
  | writeln => "Writeln"
  | readln => "Readln"
  | relExpression => "RelExpression"
  | simpleExpression => "SimpleExpression"
  | term => "Term"
  | factor => "Factor"
  | literal => "Literal"
  | variableUse => "Variable"

/-- Something that can be watched. -/
inductive Event where
  /-- A line was read. -/
  | line (number : Nat) (text : List Char)
  | token (token : Token)
  /-- A grammar rule was entered inside `depth` others. -/
  | enter (depth : Nat) (rule : Nonterminal)
  | leave (depth : Nat) (rule : Nonterminal)
  | report (diagnostic : Diagnostic)
  | verdict (accepted : Bool)

structure Watch where
  echo : Bool := false
  tokens : Bool := false
  trace : Bool := false
  diagnostics : Bool := false
  verdict : Bool := false

def Watch.shows (watch : Watch) : Event → Bool
  | .line .. => watch.echo
  | .token _ => watch.tokens
  | .enter .. | .leave .. => watch.trace
  | .report _ => watch.diagnostics
  | .verdict _ => watch.verdict

/-- What has been watched so far, the newest event first. -/
structure Journal where
  watch : Watch
  events : List Event := []

namespace Journal

/-- Notes an event if it is watched. -/
def note (journal : Journal) (event : Event) : Journal :=
  if journal.watch.shows event then { journal with events := event :: journal.events } else journal

def toList (journal : Journal) : List Event := journal.events.reverse

theorem toList_note_of_shows {journal : Journal} {event : Event} (shown : journal.watch.shows event) :
    (journal.note event).toList = journal.toList ++ [event] := by
  simp [note, shown, toList]

theorem note_of_not_shows {journal : Journal} {event : Event}
    (hidden : journal.watch.shows event = false) : journal.note event = journal := by
  simp [note, hidden]

@[simp] theorem watch_note (journal : Journal) (event : Event) :
    (journal.note event).watch = journal.watch := by
  unfold note
  split <;> rfl

end Journal

end MiniPascal
