import MiniPascal.Compiler.Rule

/-! # Writing quads and symbols -/

namespace MiniPascal.Rule

/-- Appends a quad and says where it stands. -/
def emit (op : Opcode) (a b c : Int) : Rule Nat := do
  match (← get).quads.next? with
  | some i =>
    modify fun s => { s with quads := s.quads.add ⟨op, a, b, c⟩ }
    return i
  | none => failFull .noRoomForQuad

/-- The jump target of an instruction that is not known yet. -/
def unknownTarget : Int := -1

/-- The jump target that means the next quad. -/
def nextQuad : Rule Int := return (← get).quads.target

/-- Lets the jump at `i` lead to `target`. -/
def patch (i : Nat) (target : Int) : Rule Unit :=
  modify fun s => { s with quads := s.quads.retarget i target }

/-- The cell of a symbol that the compiler itself needs. -/
def symbol (name : Text) (value : Value) : Rule Nat := do
  match (← get).symbols.add name .constant value with
  | (some i, symbols) =>
    modify fun s => { s with symbols }
    return i
  | (none, _) => failFull (.noRoomFor name)

def constant (n : Int64) : Rule Nat := symbol (.ofInt n.toInt) (.int n)

def temporaryName (n : Nat) : Text := .join ["@T", .ofNat n]

/-- A new cell for an intermediate result. -/
def temporary (kind : Kind) : Rule Nat := do
  modify fun s => { s with temporaries := s.temporaries + 1 }
  symbol (temporaryName (← get).temporaries) (.zero kind)

def resultKind (a b : Nat) : Rule Kind := do
  if (← ask (·.kind a)) = .integer then
    if (← ask (·.kind b)) = .integer then return .integer
    else return .real
  else return .real

/-- Appends an arithmetic quad with a new cell for its result. -/
def arithmetic (op : Opcode) (a b : Nat) : Rule Nat := do
  let result ← temporary (← resultKind a b)
  let _ ← emit op a b result
  return result

end MiniPascal.Rule
