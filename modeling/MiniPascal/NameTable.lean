import MiniPascal.Text.Fold

/-! # Tables of names with codes

A name table keeps rows in the order they were added, up to a fixed capacity, and never changes
one. Names are looked up without regard to case through an index that holds the first row of every
name; codes are looked up from the last row backwards.
-/

namespace MiniPascal

/-- Rows of a name and a code, and for each folded name the first row that has it. -/
structure NameTable (κ : Type) where
  capacity : Nat
  rows : Array (Text × κ) := #[]
  first : List (List Char × Nat) := []

namespace NameTable

variable {κ : Type}

def empty (capacity : Nat) : NameTable κ := { capacity }

def size (table : NameTable κ) : Nat := table.rows.size

/-- Adds a row, or leaves a full table as it is. -/
def add (table : NameTable κ) (name : Text) (code : κ) : NameTable κ :=
  if table.size = table.capacity then table
  else
    { table with
      rows := table.rows.push (name, code)
      first := match table.first.lookup name.fold with
        | some _ => table.first
        | none => (name.fold, table.size) :: table.first }

/-- The row that `add` fills, if the table has room. -/
def next? (table : NameTable κ) : Option Nat :=
  if table.size = table.capacity then none else some table.size

/-- The table of the given rows, as far as they fit. -/
def ofRows (capacity : Nat) (rows : List (Text × κ)) : NameTable κ :=
  rows.foldl (fun table row => table.add row.1 row.2) (empty capacity)

/-- The code of the first row with a name, in any case. -/
def lookupName? (table : NameTable κ) (name : Text) : Option κ :=
  (table.first.lookup name.fold).bind fun i => table.rows[i]?.map (·.2)

/-- The name of the last row with a code. -/
def lookupCode? [BEq κ] (table : NameTable κ) (code : κ) : Option Text :=
  (table.rows.toList.reverse.find? (·.2 == code)).map (·.1)

/-- The number for a name, or -1. -/
def codeFor (table : NameTable Int) (name : Text) : Int := (table.lookupName? name).getD (-1)

/-- The name for a code, or the empty text. -/
def nameFor [BEq κ] (table : NameTable κ) (code : κ) : Text := (table.lookupCode? code).getD []

end NameTable

end MiniPascal
