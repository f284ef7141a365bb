import MiniPascal.Compiler.Emit

/-! # Rules for names, literals and expressions

Each of these rules says which cell holds the value that it read.
-/

namespace MiniPascal.Rule

/-- The cell of the lexeme of the current token, past which it moves. -/
def registered : Rule Nat := do
  let s ← get
  match s.symbols.lookup? s.look.text with
  | some i =>
    advance
    return i
  | none => failFull (.neverRegistered s.look.lexeme)

def identifier : Rule Nat := do
  if (← lookKind) = .identifier then registered else failExpecting "identifier"

/-- An identifier used as a variable: it must not name the program, and should be declared. -/
def variableUse : Rule Nat := traced .variableUse do
  let lexeme := (← get).look.lexeme
  let i ← identifier
  if (← ask (·.usage i)) = .program then fail (.programNameUsed lexeme)
  else
    let s ← get
    if i ∉ s.declared ∧ i ∉ s.warned then
      set { s.note (.report (.undeclared lexeme)) with warned := i :: s.warned }
    return i

def literal : Rule Nat := traced .literal registered

/-- A number, a variable, or an expression in parentheses. -/
def factor (expression : Rule Nat) : Rule Nat := traced .factor do
  match ← lookKind with
  | .integerLiteral | .realLiteral => literal
  | .identifier => variableUse
  | .leftParen =>
    advance
    let v ← expression
    expect .rightParen
    return v
  | _ => failExpecting "number, variable, or ("

def factorOperation? : TokenKind → Option Opcode
  | .star => some .mul
  | .slash => some .div
  | _ => none

def termOperation? : TokenKind → Option Opcode
  | .plus => some .add
  | .minus => some .sub
  | _ => none

/-- One more operand and the operation before it, if there is one. -/
def operation (operation? : TokenKind → Option Opcode) (operand : Rule Nat) (left : Nat) :
    Rule (Option Nat) := do
  match operation? (← lookKind) with
  | none => return none
  | some op =>
    advance
    let right ← operand
    return some (← arithmetic op left right)

/-- Factors with multiplications and divisions between them, from left to right. -/
def term (expression : Rule Nat) : Rule Nat := traced .term do
  repeated (operation factorOperation? (factor expression)) (← factor expression)

/-- A sign before the first term; a minus sign multiplies that term by -1. -/
def signedTerm (term : Rule Nat) : Rule Nat := do
  match ← lookKind with
  | .plus =>
    advance
    term
  | .minus =>
    advance
    let v ← term
    arithmetic .mul v (← constant (-1))
  | _ => term

/-- Terms with additions and subtractions between them, from left to right. -/
def simpleExpression (expression : Rule Nat) : Rule Nat := traced .simpleExpression do
  repeated (operation termOperation? (term expression)) (← signedTerm (term expression))

/-- An expression with at most `fuel` nested parentheses. -/
def expressionWithin : (fuel : Nat) → Rule Nat
  | 0 => throw .outOfFuel
  | fuel + 1 => fun s => simpleExpression (expressionWithin fuel) s

def expression : Rule Nat := fun s => expressionWithin (s.unread.length + 2) s

/-- A text literal or an expression. -/
def operand : Rule Nat := do
  if (← lookKind) = .textLiteral then literal else expression

/-- The jump that is taken when a relation is false, by the sign of the difference of its sides. -/
def falseJump? : TokenKind → Option Opcode
  | .equal => some .jnz
  | .notEqual => some .jz
  | .less => some .jnn
  | .greater => some .jnp
  | .lessEq => some .jp
  | .greaterEq => some .jn
  | _ => none

/-- A relation: says where the jump stands that is taken when it is false. -/
def relExpression : Rule Nat := traced .relExpression do
  let left ← expression
  match falseJump? (← lookKind) with
  | none => failExpecting "relational operator"
  | some jump =>
    advance
    let right ← expression
    let difference ← arithmetic .sub left right
    emit jump difference 0 unknownTarget

end MiniPascal.Rule
