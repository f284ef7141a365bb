import MiniPascal.Value
import MiniPascal.Text.Fold

/-! # The symbol table

The symbol table is the memory of a program: a row of cells, each with a name, a usage and a value.
Names are unique without regard to case and are found through an index of folded names. A cell
never moves and never loses its name; its kind changes only by a declaration. Reading a cell that
does not exist, or as another kind than it has, is an error and not a value.
-/

namespace MiniPascal

structure Cell where
  name : Text
  usage : Usage
  value : Value

/-- Cells in the order they were added, and the position of every folded name. -/
structure SymbolTable where
  capacity : Nat
  cells : Array Cell := #[]
  index : List (List Char × Nat) := []

namespace SymbolTable

def empty (capacity : Nat) : SymbolTable := { capacity }

def size (table : SymbolTable) : Nat := table.cells.size

def lookup? (table : SymbolTable) (name : Text) : Option Nat := table.index.lookup name.fold

/-- The position of a name, with the table that has it: a name that is new gets a cell at the end
if there is room. -/
def add (table : SymbolTable) (name : Text) (usage : Usage) (value : Value) :
    Option Nat × SymbolTable :=
  match table.lookup? name with
  | some i => (some i, table)
  | none =>
    if table.size = table.capacity then (none, table)
    else
      (some table.size,
        { table with
          cells := table.cells.push ⟨name, usage, value⟩
          index := (name.fold, table.size) :: table.index })

def cell? (table : SymbolTable) (i : Int) : Option Cell :=
  if i < 0 then none else table.cells[i.toNat]?

/-- The cell at an index that has to name one. -/
def cell (table : SymbolTable) (i : Int) : Except AccessError Cell :=
  match table.cell? i with
  | some cell => .ok cell
  | none => .error (.noCell i table.size)

def name (table : SymbolTable) (i : Int) : Except AccessError Text := (table.cell i).map (·.name)

def usage (table : SymbolTable) (i : Int) : Except AccessError Usage := (table.cell i).map (·.usage)

def value (table : SymbolTable) (i : Int) : Except AccessError Value := (table.cell i).map (·.value)

def kind (table : SymbolTable) (i : Int) : Except AccessError Kind :=
  (table.cell i).map (·.value.kind)

/-- The integer in a cell of that kind. -/
def int (table : SymbolTable) (i : Int) : Except AccessError Int64 :=
  (table.cell i).bind fun cell => match cell.value with
    | .int n => .ok n
    | other => .error (.wrongKind i other.kind .integer)

def real (table : SymbolTable) (i : Int) : Except AccessError Float :=
  (table.cell i).bind fun cell => match cell.value with
    | .real x => .ok x
    | other => .error (.wrongKind i other.kind .real)

def text (table : SymbolTable) (i : Int) : Except AccessError Text :=
  (table.cell i).bind fun cell => match cell.value with
    | .text t => .ok t
    | other => .error (.wrongKind i other.kind .text)

/-- Replaces a cell, keeping its name. -/
def modify (table : SymbolTable) (i : Nat) (usage : Usage) (value : Value) : SymbolTable :=
  { table with cells := table.cells.modify i fun cell => { cell with usage, value } }

/-- Gives a cell a new usage and a new value of the same kind; an index without a cell is ignored. -/
def update (table : SymbolTable) (i : Int) (usage : Usage) (value : Value) :
    Except AccessError SymbolTable :=
  match table.cell? i with
  | none => .ok table
  | some cell =>
    if cell.value.kind = value.kind then .ok (table.modify i.toNat usage value)
    else .error (.wrongKind i cell.value.kind value.kind)

/-- Makes a cell a variable of the given kind, holding that kind's zero. -/
def declare (table : SymbolTable) (i : Int) (kind : Kind) : Except AccessError SymbolTable :=
  (table.cell i).map fun _ => table.modify i.toNat .var (.zero kind)

end SymbolTable

end MiniPascal
