import MiniPascal.Quad

/-! # Programs built in

Two small programs are written in quads directly. Each computes a function of a number `n` in a
loop and prints it.
-/

namespace MiniPascal.Demo

/-- Symbols and quads of a built-in program have small tables of their own. -/
def tables : Program := ⟨.empty 8, .empty 16⟩

def build (cells : List (String × Usage × Int64)) (quads : List Quad) : Program :=
  { symbols := cells.foldl (fun table cell => (table.add cell.1 cell.2.1 (.int cell.2.2)).2) tables.symbols
    quads := quads.foldl QuadTable.add tables.quads }

/-- Multiplies `product` by `i` for `i` from 1 to `n`. -/
def factorial (n : Int64) : Program :=
  build
    [("n", .var, n), ("i", .var, 0), ("product", .var, 0), ("1", .constant, 1), ("@T1", .constant, 0)]
    [⟨.mov, 3, 0, 1⟩, ⟨.mov, 3, 0, 2⟩, ⟨.sub, 1, 0, 4⟩, ⟨.jp, 4, 0, 7⟩, ⟨.mul, 2, 1, 2⟩,
      ⟨.add, 1, 3, 1⟩, ⟨.jmp, 0, 0, 2⟩, ⟨.print, 0, 0, 2⟩, ⟨.stop, 0, 0, 0⟩]

/-- Adds `i` to `sum` for `i` from 1 to `n`. -/
def summation (n : Int64) : Program :=
  build
    [("n", .var, n), ("i", .var, 0), ("sum", .var, 0), ("0", .constant, 0), ("1", .constant, 1),
      ("@T1", .constant, 0)]
    [⟨.mov, 3, 0, 2⟩, ⟨.mov, 4, 0, 1⟩, ⟨.sub, 1, 0, 5⟩, ⟨.jp, 5, 0, 7⟩, ⟨.add, 2, 1, 2⟩,
      ⟨.add, 1, 4, 1⟩, ⟨.jmp, 0, 0, 2⟩, ⟨.print, 0, 0, 2⟩, ⟨.stop, 0, 0, 0⟩]

def programs : List (String × (Int64 → Program)) := [("factorial", factorial), ("summation", summation)]

def program? (name : Text) : Option (Int64 → Program) :=
  (programs.find? fun row => Text.ofString row.1 = name).map (·.2)

end MiniPascal.Demo
