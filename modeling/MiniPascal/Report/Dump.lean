import MiniPascal.Output.Device
import MiniPascal.Token.Kind

/-! # Tables as text

A table is written with a header and one line per row, in columns with bars between them. Only rows
that are in use are written.
-/

namespace MiniPascal

/-- Columns with bars between them. -/
def columns (cells : List Text) : Text := (Text.join (cells.intersperse "|")).line

def rightAligned (width : Nat) (text : Text) : Text := text.padLeft width ' '

/-- A tag as a column shows it. -/
def tagColumn (tag : UInt8) : Text := Text.padRight 3 [.char (tagChar tag)]

def SymbolTable.dump (table : SymbolTable) : List Text :=
  columns [rightAligned 5 "Index", .padRight 20 "Name", .padRight 3 "Use", .padRight 3 "Typ", "Value"] ::
    table.cells.toList.zipIdx.map fun (cell, i) =>
      columns [rightAligned 5 (.ofNat i), cell.name.padRight 20, tagColumn cell.usage.tag,
        tagColumn cell.value.kind.tag, cell.value.toText]

def QuadTable.dump (table : QuadTable) : List Text :=
  columns [rightAligned 5 "Index", .padRight 5 "Op", rightAligned 5 "A", rightAligned 5 "B",
      rightAligned 5 "C"] ::
    table.quads.toList.zipIdx.map fun (q, i) =>
      columns [rightAligned 5 (.ofNat i), q.op.name.padRight 5, rightAligned 5 (.ofInt q.a),
        rightAligned 5 (.ofInt q.b), rightAligned 5 (.ofInt q.c)]

def NameTable.dump (table : NameTable Int) : List Text :=
  columns [rightAligned 5 "Index", .padRight 10 "Name", "Code"] ::
    table.rows.toList.zipIdx.map fun ((name, code), i) =>
      columns [rightAligned 5 (.ofNat i), name.padRight 10, .ofInt code]

/-- Writes lines to a device one by one, until one fails. -/
def Devices.writeLines (device : Nat) (failure : Option Failure) (devices : Devices) :
    List Text → Option Failure × Devices
  | [] => (failure, devices)
  | line :: rest =>
    match failure with
    | some failure => (some failure, devices)
    | none =>
      let (written, devices) := devices.write device line.bytes
      writeLines device written.failure devices rest

end MiniPascal
