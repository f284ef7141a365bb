import MiniPascal.Machine.State

/-! # Executing quads

A run starts at the first quad and ends at a `STOP`, past the last quad, at the end of the input, or
with a failure. After each quad its context is asked whether it is to end. Before a run ends in an
orderly way, a fault included, the console is flushed. An access to a cell that does not exist or has
another kind breaks the run off where it stands.
-/

namespace MiniPascal

/-- Why execution ends. -/
inductive Halt where
  /-- In an orderly way, for a cause if there is one. -/
  | stopped (cause : Option Failure)
  /-- In the middle of a quad. -/
  | crashed (error : AccessError)
  | outOfFuel

/-- The surroundings of a run, which can end it: `context n` is what they answer when `n` quads and the one
after them have been executed. -/
abbrev Context := Nat → Option Failure

/-- Surroundings that never end a run. -/
def Context.background : Context := fun _ => none

namespace Machine

/-- The machine after tracing a line under a label. Labels are aligned to the widest one so far. -/
def traced (m : Machine) (label message : Text) : Machine :=
  if m.tracing then
    let labelWidth := max m.labelWidth label.length
    let line := .join [label.padLeft labelWidth ' ', " ", message]
    { m with labelWidth, console := m.console.trace line }
  else m

/-- The answer of the source of integers to a prompt, and the machine afterwards. -/
def asked (m : Machine) (prompt : Text) : Except Failure Int64 × Machine :=
  match m.script.bind fun i => m.scripts[i]?.map fun script => (i, script.read prompt) with
  | some (i, result, script) => (result, { m with scripts := m.scripts.set! i script })
  | none =>
    let (result, reader) := (LineReader.mk m.console m.input).readInteger prompt
    (result, { m with console := reader.console, input := reader.input })

end Machine

/-- A computation on a machine that may end its run. -/
abbrev Exec := EStateM Halt Machine

namespace Exec

variable {α : Type}

def ask (read : SymbolTable → Except AccessError α) : Exec α := do
  match read (← get).program.symbols with
  | .ok a => return a
  | .error error => throw (.crashed error)

def change (write : SymbolTable → Except AccessError SymbolTable) : Exec Unit := do
  let symbols ← ask write
  modify fun m => { m with program := { m.program with symbols } }

/-- The result of a calculation with a memory value, which may have the wrong kind. -/
def checked : Except AccessError α → Exec α
  | .ok a => return a
  | .error error => throw (.crashed error)

def trace (label message : Text) : Exec Unit := modify (·.traced label message)

def flush : Exec (Option Failure) := do
  let (failure, console) := (← get).console.flush
  modify fun m => { m with console }
  return failure

/-- The end of a run as a trace shows it. -/
def haltText : Option Failure → Text
  | some failure => .join ["halt error: ", failure.message]
  | none => "halt"

/-- Ends the run in an orderly way. -/
def halt (cause : Option Failure) : Exec α := do
  let cause := cause.or (← flush)
  trace "#" (haltText cause)
  throw (.stopped cause)

/-- Ends the run if there is a cause. -/
def haltIf : Option Failure → Exec Unit
  | some failure => halt (some failure)
  | none => return ()

/-- Ends the run because the current quad cannot be executed. -/
def fault (cause : Failure) : Exec α := do
  let m ← get
  halt (some (.fault m.current m.quad cause))

/-- A result, or a fault at the current quad. -/
def orFault : Except Failure α → Exec α
  | .ok a => return a
  | .error cause => fault cause

def jump (target : Int) : Exec Unit := do
  if target < 0 then fault (.badJump target)
  else modify fun m => { m with pc := target.toNat }

/-- Calculates with two values: in integers if both are, otherwise in reals. -/
def calculate (op : Opcode) (x y : Value) : Exec Value := do
  match x, y with
  | .int a, .int b => return .int (← orFault (integerOperation op a b))
  | x, y =>
    let a ← checked x.toReal
    let b ← checked y.toReal
    return .real (← orFault (realOperation op a b))

/-- A value as a cell of the given kind takes it. Only numbers are converted. -/
def convert (value : Value) (kind : Kind) : Exec Value := do
  match value, kind with
  | .int n, .real => return .real (Float.ofInt n.toInt)
  | .real x, .integer => return .int (← orFault (realToWord x))
  | value, _ => return value

def store (i : Int) (value : Value) : Exec Unit := do
  let kind ← ask (·.kind i)
  let value ← convert value kind
  let usage ← ask (·.usage i)
  change (·.update i usage value)

/-- Prints a value on a line of its own. -/
def print (value : Value) : Exec Unit := do
  let (written, console) := (← get).console.write value.toText.line.bytes
  modify fun m => { m with console }
  haltIf written.failure

def prompt (name : Text) : Text := .join ["Enter an integer for ", name, ": "]

def readInteger (prompt : Text) : Exec (Except Failure Int64) := do
  let (result, m) := (← get).asked prompt
  set m
  return result

def read (i : Int) : Exec Unit := do
  haltIf (← flush)
  let name ← ask (·.name i)
  match ← readInteger (prompt name) with
  | .ok n => store i (.int n)
  | .error failure => halt (some failure)

/-- A cell with its value as a trace shows it; a number that names no cell stands for itself. -/
def operandText (symbols : SymbolTable) (i : Int) : Text :=
  match symbols.cell? i with
  | some cell => .join [cell.name, "=", cell.value.toText]
  | none => .ofInt i

/-- A quad with its operands as a trace shows it. -/
def quadText (symbols : SymbolTable) (q : Quad) : Text :=
  let operand := operandText symbols
  match q.op with
  | .stop => q.op.name
  | .jmp => .join [q.op.name, " ", .ofInt q.c]
  | .jz | .jp | .jn | .jnz | .jnp | .jnn => .join [q.op.name, " ", operand q.a, ", ", .ofInt q.c]
  | .print | .read | .jindr => .join [q.op.name, " ", operand q.c]
  | .mov => .join [q.op.name, " ", operand q.a, ", ", operand q.c]
  | _ => .join [q.op.name, " ", operand q.a, ", ", operand q.b, ", ", operand q.c]

/-- Fetches the next quad and counts it against the limit. -/
def fetch : Exec Quad := do
  let m ← get
  let q := m.program.quads.get m.pc
  set { m with
    current := m.pc
    quad := q
    pc := m.pc + 1
    steps := if 0 < m.stepLimit then m.steps + 1 else m.steps }
  let m ← get
  if 0 < m.stepLimit ∧ m.stepLimit < m.steps then fault .stepLimit
  else
    if m.tracing then
      trace "exec" (.join ["@", .fourPlaces m.current, " ", quadText m.program.symbols q])
    return q

def execute (q : Quad) : Exec Unit := do
  match q.op with
  | .stop => halt none
  | .div | .mul | .sub | .add =>
    let x ← ask (·.value q.a)
    let y ← ask (·.value q.b)
    store q.c (← calculate q.op x y)
  | .mov => store q.c (← ask (·.value q.a))
  | .print => print (← ask (·.value q.c))
  | .read => read q.c
  | .jmp => jump q.c
  | .jz | .jp | .jn | .jnz | .jnp | .jnn =>
    let x ← ask (·.value q.a)
    if q.op.taken (← checked x.sign) then jump q.c
  | .jindr =>
    let n ← ask (·.int q.c)
    jump n.toInt
  | .invalid _ => fault (.badOpcode q.op)

def step : Exec Unit := do execute (← fetch)

/-- Executes quads until the run ends, at most `fuel` of them, after `done` others. -/
def runWithin (context : Context) : (done fuel : Nat) → Exec Unit
  | _, 0 => throw .outOfFuel
  | done, fuel + 1 => do
    let m ← get
    if m.pc < m.program.quads.size then
      step
      haltIf (context done)
      runWithin context (done + 1) fuel
    else haltIf (← flush)

end Exec

/-- How a run came to its end. -/
inductive RunEnd where
  | finished (failure : Option Failure)
  | outOfFuel

namespace Machine

/-- The start of a run. -/
def rewind (machine : Machine) : Machine := { machine with pc := 0, steps := 0 }

/-- The failure that a run reports, if it does not just run out of input. -/
def runFailure? (machine : Machine) : Halt → Option Failure
  | .stopped cause => cause.filter fun failure => !failure.isEndOfInput
  | .crashed error =>
    (Attempt.brokeOff (.access error)).failure? "VM" |>.map (.fault machine.current machine.quad)
  | .outOfFuel => none

/-- Runs a program from its first quad, for at most `fuel` quads. -/
def run (context : Context) (fuel : Nat) (machine : Machine) : RunEnd × Machine :=
  match Exec.runWithin context 0 fuel machine.rewind with
  | .ok _ machine => (.finished none, machine)
  | .error .outOfFuel machine => (.outOfFuel, machine)
  | .error halt machine => (.finished (machine.runFailure? halt), machine)

/-- More quads than a run executes in any time that one could wait for. -/
def horizon : Nat := Nat.pow 2 62

end Machine

end MiniPascal
