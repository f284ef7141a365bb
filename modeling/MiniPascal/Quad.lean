import MiniPascal.NameTable
import MiniPascal.SymbolTable
import MiniPascal.Text.Layout

/-! # Quads

A quad is one instruction of the machine: an operation and three numbers, which are cell indices,
a jump target, or unused, depending on the operation. Programs built by hand may hold any number as
an operation.
-/

namespace MiniPascal

inductive Opcode where
  | stop
  | div
  | mul
  | sub
  | add
  | mov
  | print
  | read
  | jmp
  | jz
  | jp
  | jn
  | jnz
  | jnp
  | jnn
  | jindr
  /-- A number that stands for no operation. -/
  | invalid (code : Int)
deriving DecidableEq

namespace Opcode

/-- The operations in the order of their numbers, with their names. -/
def listed : List (String × Opcode) :=
  [("STOP", stop), ("DIV", div), ("MUL", mul), ("SUB", sub), ("ADD", add), ("MOV", mov),
    ("PRINT", print), ("READ", read), ("JMP", jmp), ("JZ", jz), ("JP", jp), ("JN", jn),
    ("JNZ", jnz), ("JNP", jnp), ("JNN", jnn), ("JINDR", jindr)]

def code : Opcode → Int
  | stop => 0
  | div => 1
  | mul => 2
  | sub => 3
  | add => 4
  | mov => 5
  | print => 6
  | read => 7
  | jmp => 8
  | jz => 9
  | jp => 10
  | jn => 11
  | jnz => 12
  | jnp => 13
  | jnn => 14
  | jindr => 15
  | invalid code => code

def ofCode (code : Int) : Opcode :=
  match listed.find? (·.2.code = code) with
  | some row => row.2
  | none => invalid code

def valid : Opcode → Bool
  | invalid _ => false
  | _ => true

def name : Opcode → Text
  | stop => "STOP"
  | div => "DIV"
  | mul => "MUL"
  | sub => "SUB"
  | add => "ADD"
  | mov => "MOV"
  | print => "PRINT"
  | read => "READ"
  | jmp => "JMP"
  | jz => "JZ"
  | jp => "JP"
  | jn => "JN"
  | jnz => "JNZ"
  | jnp => "JNP"
  | jnn => "JNN"
  | jindr => "JINDR"
  | invalid code => .join ["Opcode(", .ofInt code, ")"]

/-- Whether an operation is a jump to the quad its third number names. -/
def isJump : Opcode → Bool
  | jmp | jz | jp | jn | jnz | jnp | jnn => true
  | _ => false

/-- Whether a jump is taken when its tested cell has the given sign. -/
def taken (op : Opcode) (sign : Int) : Bool :=
  match op with
  | jmp => true
  | jz => sign = 0
  | jp => 0 < sign
  | jn => sign < 0
  | jnz => sign ≠ 0
  | jnp => sign ≤ 0
  | jnn => 0 ≤ sign
  | _ => false

def names : NameTable Int := .ofRows 20 (listed.map fun row => (.ofString row.1, row.2.code))

end Opcode

structure Quad where
  op : Opcode
  a : Int
  b : Int
  c : Int
deriving DecidableEq

/-- The quad that stands where no quad is stored. -/
def Quad.missing : Quad := ⟨.invalid (-1), -1, -1, -1⟩

def Quad.toText (q : Quad) : Text :=
  .join [q.op.name, " ", .ofInt q.a, ", ", .ofInt q.b, ", ", .ofInt q.c]

/-- Quads in order, up to a capacity. -/
structure QuadTable where
  capacity : Nat
  quads : Array Quad := #[]

namespace QuadTable

def empty (capacity : Nat) : QuadTable := { capacity }

def size (table : QuadTable) : Nat := table.quads.size

/-- Where the next quad goes, if there is room for one. -/
def next? (table : QuadTable) : Option Nat :=
  if table.size = table.capacity then none else some table.size

/-- The jump target that means the next quad; a full table has none and gives -1. -/
def target (table : QuadTable) : Int :=
  match table.next? with
  | some i => i
  | none => -1

/-- Appends a quad, or leaves a full table as it is. -/
def add (table : QuadTable) (q : Quad) : QuadTable :=
  if table.size < table.capacity then { table with quads := table.quads.push q } else table

def get (table : QuadTable) (i : Int) : Quad :=
  if i < 0 then .missing else table.quads[i.toNat]?.getD .missing

/-- Gives the quad at an index another third number; an index without a quad is ignored. -/
def retarget (table : QuadTable) (i : Int) (c : Int) : QuadTable :=
  if i < 0 then table else { table with quads := table.quads.modify i.toNat fun q => { q with c } }

theorem size_add {table : QuadTable} (room : table.size < table.capacity) (q : Quad) :
    (table.add q).size = table.size + 1 := by
  rw [add, if_pos room]
  simp [size]

theorem add_of_full {table : QuadTable} (full : table.capacity ≤ table.size) (q : Quad) :
    table.add q = table := by
  simp [add, Nat.not_lt.mpr full]

/-- Only the third number of a quad can change. -/
@[simp] theorem size_retarget (table : QuadTable) (i c : Int) :
    (table.retarget i c).size = table.size := by
  unfold retarget
  split <;> simp [size]

end QuadTable

/-- Instructions and the memory they work on. -/
structure Program where
  symbols : SymbolTable
  quads : QuadTable

end MiniPascal
