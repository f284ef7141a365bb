import MiniPascal.Compiler.Expression

/-! # Rules for statements, and recovery from errors -/

namespace MiniPascal.Rule

/-- A variable, `:=`, and a value. -/
def assignment : Rule Unit := traced .assignment do
  let target ← variableUse
  expect .assign
  let source ← operand
  let _ ← emit .mov source 0 target

/-- One more statement after a semicolon, if there is one. -/
def anotherStatement (statement : Rule Unit) (_ : Unit) : Rule (Option Unit) := do
  if (← lookKind) = .semicolon then
    advance
    statement
    return some ()
  else return none

def statements (statement : Rule Unit) : Rule Unit := do
  repeated (anotherStatement statement) (← statement)

/-- Statements between `BEGIN` and `END`. -/
def blockBody (statement : Rule Unit) : Rule Unit := traced .blockBody do
  expect .kwBegin
  statements statement
  expect .kwEnd

/-- A relation, a statement for the case that it is true, and perhaps one for the other case. -/
def ifStatement (statement : Rule Unit) : Rule Unit := traced .ifStatement do
  advance
  let test ← relExpression
  expect .kwThen
  statement
  if (← lookKind) = .kwElse then
    advance
    let skip ← emit .jmp 0 0 unknownTarget
    patch test (← nextQuad)
    statement
    patch skip (← nextQuad)
  else patch test (← nextQuad)

def whileStatement (statement : Rule Unit) : Rule Unit := traced .whileStatement do
  advance
  let top ← nextQuad
  let test ← relExpression
  expect .kwDo
  statement
  let _ ← emit .jmp 0 0 top
  patch test (← nextQuad)

def repeatStatement (statement : Rule Unit) : Rule Unit := traced .repeatStatement do
  advance
  let top ← nextQuad
  statements statement
  expect .kwUntil
  let test ← relExpression
  patch test top

def countsDown : Rule Bool := do
  match ← lookKind with
  | .kwTo =>
    advance
    return false
  | .kwDownto =>
    advance
    return true
  | _ => failExpecting "TO or DOWNTO"

/-- The cell of what a counter changes by, given the cell of the constant one. -/
def counterStep (down : Bool) (one : Nat) : Rule Nat := if down then constant (-1) else pure one

/-- The quads of a loop that counts: the start and the limit are copied, and the distance between
counter and limit is tested before the first pass and after each one. -/
def countingLoop (statement : Rule Unit) (down : Bool) (counter start limit step bound distance : Nat) :
    Rule Unit := do
  let left := if down then counter else bound
  let right := if down then bound else counter
  let _ ← emit .mov start 0 counter
  let _ ← emit .mov limit 0 bound
  let _ ← emit .sub left right distance
  let guard ← emit .jn distance 0 unknownTarget
  let head ← nextQuad
  statement
  let _ ← emit .add counter step counter
  let _ ← emit .sub left right distance
  let _ ← emit .jnn distance 0 head
  patch guard (← nextQuad)

/-- A counter that runs from one value to another by one, with a test before the first pass. -/
def forStatement (statement : Rule Unit) : Rule Unit := traced .forStatement do
  advance
  let counter ← variableUse
  expect .assign
  let start ← expression
  let down ← countsDown
  let limit ← expression
  expect .kwDo
  let step ← counterStep down (← constant 1)
  let bound ← temporary (← ask (·.kind limit))
  let distance ← temporary (← resultKind bound counter)
  countingLoop statement down counter start limit step bound distance

def writeln : Rule Unit := traced .writeln do
  advance
  expect .leftParen
  let v ← operand
  expect .rightParen
  let _ ← emit .print 0 0 v

def readln : Rule Unit := traced .readln do
  advance
  expect .leftParen
  let v ← variableUse
  expect .rightParen
  let _ ← emit .read 0 0 v

/-- The statement that starts with the current token. Before `END` and `UNTIL` it may be empty. -/
def dispatch (statement : Rule Unit) : Rule Unit := do
  match ← lookKind with
  | .identifier => assignment
  | .kwBegin => blockBody statement
  | .kwIf => ifStatement statement
  | .kwWhile => whileStatement statement
  | .kwRepeat => repeatStatement statement
  | .kwFor => forStatement statement
  | .kwWriteln => writeln
  | .kwReadln => readln
  | .kwEnd | .kwUntil => return ()
  | _ => failExpecting "statement"

/-- Moves on to a token that a statement can start with, or to the end, counting the tokens. -/
def skipTokens : (fuel : Nat) → (skipped : Nat) → Session → Nat × Session
  | 0, skipped, s => (skipped, s)
  | fuel + 1, skipped, s =>
    if s.look.kind = .endOfInput ∨ s.look.kind.startsStatement then (skipped, s)
    else skipTokens fuel (skipped + 1) s.advance

/-- After an error, moves on to where another statement can be tried, if there is such a place. -/
def resync : Rule Bool := fun s =>
  if s.exhausted then .ok false s
  else
    let (skipped, s) := skipTokens (s.unread.length + 2) 0 s
    if s.look.kind = .endOfInput then .ok false (s.note (.report .noStatementLeft))
    else .ok true (s.note (.report (.resumed skipped s.look.lexeme s.line)))

/-- Tries again after an error, if there is a place to go on from. -/
def recovering (body again : Rule Unit) : Rule Unit := fun s =>
  match body s with
  | .error .gaveUp s =>
    match resync s with
    | .ok true s => again s
    | .ok false s => .error .gaveUp s
    | .error abort s => .error abort s
  | result => result

/-- A statement, and after an error in it another one, within the given number of turns. -/
def attemptWithin : (fuel : Nat) → Rule Unit
  | 0 => throw .outOfFuel
  | fuel + 1 => fun s =>
    recovering (dispatch (traced .statement (attemptWithin fuel))) (attemptWithin fuel) s

def statement : Rule Unit := fun s =>
  traced .statement (attemptWithin (s.unread.length + 2)) s

end MiniPascal.Rule
