import MiniPascal.Compiler.Statement

/-! # Compiling a program

`compile` turns a program text into quads and symbols in one pass. The tables are returned even if
errors were reported, so that they can be looked at.
-/

namespace MiniPascal

namespace Rule

def progIdentifier : Rule Unit := traced .progIdentifier do
  let i ← identifier
  let value ← ask (·.value i)
  change (·.update i .program value)

def simpleType : Rule Kind := traced .simpleType do
  match ← lookKind with
  | .kwInteger =>
    advance
    return .integer
  | .kwFloat =>
    advance
    return .real
  | .kwString =>
    advance
    return .text
  | _ => failExpecting "INTEGER, FLOAT, or STRING"

def declare (kind : Kind) (i : Nat) : Rule Unit := do
  if i ∈ (← get).declared then remark (.declaredAgain (← ask (·.name i)))
  modify fun s => { s with declared := i :: s.declared }
  change (·.declare i kind)

/-- One more identifier after a comma, if there is one. -/
def anotherIdentifier (ids : List Nat) : Rule (Option (List Nat)) := do
  if (← lookKind) = .comma then
    advance
    return some (ids ++ [← identifier])
  else return none

def identifiers : Rule (List Nat) := do repeated anotherIdentifier [← identifier]

/-- Variables with their common kind, ended by a semicolon. -/
def declarationGroup : Rule Unit := do
  let ids ← identifiers
  expect .colon
  let kind ← simpleType
  ids.forM (declare kind)
  expect .semicolon

/-- A group of variables; says whether another one follows. -/
def oneGroup (_ : Unit) : Rule (Option Unit) := do
  declarationGroup
  if (← lookKind) = .identifier then return some () else return none

def varDeclarations : Rule Unit := traced .varDeclarations (repeated oneGroup ())

/-- One more section with declarations, if there is one. -/
def anotherSection (_ : Unit) : Rule (Option Unit) := do
  if (← lookKind) = .kwVar then
    advance
    varDeclarations
    return some ()
  else return none

/-- Any number of sections with declarations. -/
def varSections : Rule Unit := repeated anotherSection ()

def block : Rule Unit := traced .block do
  varSections
  blockBody statement

def program : Rule Unit := traced .program do
  expect .kwUnit
  progIdentifier
  expect .semicolon
  block
  expect .period
  let _ ← emit .stop 0 0 0

end Rule

structure CompileOptions where
  quote : Char := '\''
  maxSymbols : Nat := 250
  maxQuads : Nat := 1000
  watch : Watch := {}

inductive Verdict where
  | accepted
  /-- This many errors were reported. -/
  | rejected (errors : Nat)
  | crashed (error : AccessError)
  | outOfFuel

/-- What a compilation leaves behind. -/
structure Compilation where
  program : Program
  verdict : Verdict
  journal : Journal

def Verdict.failure? : Verdict → Option Failure
  | accepted => none
  | rejected errors => some (.rejected errors)
  | crashed error => some (.brokeOff [] (.access error))
  | outOfFuel => some (.brokeOffText [] "out of fuel")

/-- The session at the start of a compilation, before the first token. -/
def Session.start (options : CompileOptions) (input : Input) : Session :=
  { toLexing := .start options.quote options.maxSymbols options.watch input
    quads := .empty options.maxQuads }

/-- The verdict on a session that has come to its end. -/
def Session.finish (s : Session) : Compilation :=
  let errors := s.syntaxErrors + s.lexicalErrors
  { program := ⟨s.symbols, s.quads⟩
    verdict := if errors = 0 then .accepted else .rejected errors
    journal := s.journal.note (.verdict (errors = 0)) }

def compile (options : CompileOptions) (input : Input) : Compilation :=
  match Rule.program (Session.start options input).advance with
  | .ok _ s | .error .gaveUp s => s.finish
  | .error (.crashed error) s => ⟨⟨s.symbols, s.quads⟩, .crashed error, s.journal⟩
  | .error .outOfFuel s => ⟨⟨s.symbols, s.quads⟩, .outOfFuel, s.journal⟩

end MiniPascal
