import MiniPascal.Decimal.Real
import MiniPascal.Text.Quoted

/-! # Values, their kinds and the uses of a symbol

A cell of the machine's memory holds an integer of one 64-bit word, a real, or a text, and is used
as a variable, a constant, or the name of the program. Both properties are one-letter tags, and a
table built by hand may carry any other letter.
-/

namespace MiniPascal

inductive Kind where
  | integer
  | real
  | text
  /-- A tag that stands for no kind of value. -/
  | other (tag : UInt8)
deriving DecidableEq

/-- What a symbol is for. -/
inductive Usage where
  | var
  | constant
  | program
  /-- A tag without a meaning of its own. -/
  | other (tag : UInt8)
deriving DecidableEq

/-- The character a one-letter tag stands for. -/
def tagChar (tag : UInt8) : Char := Char.ofNat tag.toNat

namespace Kind

def tag : Kind → UInt8
  | integer => 'I'.toUInt8
  | real => 'F'.toUInt8
  | text => 'S'.toUInt8
  | other tag => tag

def ofTag (tag : UInt8) : Kind :=
  if tag = 'I'.toUInt8 then integer
  else if tag = 'F'.toUInt8 then real
  else if tag = 'S'.toUInt8 then text
  else other tag

def name : Kind → Text
  | integer => "integer"
  | real => "real"
  | text => "text"
  | other tag => .join ["Kind(", quotedChar (tagChar tag), ")"]

end Kind

namespace Usage

def tag : Usage → UInt8
  | var => 'V'.toUInt8
  | constant => 'C'.toUInt8
  | program => 'P'.toUInt8
  | other tag => tag

def ofTag (tag : UInt8) : Usage :=
  if tag = 'V'.toUInt8 then var
  else if tag = 'C'.toUInt8 then constant
  else if tag = 'P'.toUInt8 then program
  else other tag

def name : Usage → Text
  | var => "variable"
  | constant => "constant"
  | program => "program"
  | other tag => .join ["Usage(", quotedChar (tagChar tag), ")"]

end Usage

inductive Value where
  | int (n : Int64)
  | real (x : Float)
  | text (t : Text)

/-- A value was read or written as another kind than it has, or an index names no cell. -/
inductive AccessError where
  /-- The cell at `index` (or a value outside the table, if that is negative) has another kind. -/
  | wrongKind (index : Int) (held wanted : Kind)
  /-- The table has only `size` cells. -/
  | noCell (index : Int) (size : Nat)

def AccessError.message : AccessError → Text
  | .wrongKind index held wanted =>
    if index < 0 then .join [held.name, " value accessed as ", wanted.name]
    else .join ["symbol ", .ofInt index, " holds ", held.name, ", accessed as ", wanted.name]
  | .noCell index size =>
    .join ["symbol index ", .ofInt index, " out of range [0:", .ofNat size, "]"]

namespace Value

def kind : Value → Kind
  | int _ => .integer
  | real _ => .real
  | text _ => .text

/-- The value a fresh cell of the given kind holds. -/
def zero : Kind → Value
  | .real => real 0
  | .text => text []
  | .integer | .other _ => int 0

def toText : Value → Text
  | int n => .ofInt n.toInt
  | real x => realText x
  | text t => t

def asInt : Value → Except AccessError Int64
  | int n => .ok n
  | value => .error (.wrongKind (-1) value.kind .integer)

def asReal : Value → Except AccessError Float
  | real x => .ok x
  | value => .error (.wrongKind (-1) value.kind .real)

def asText : Value → Except AccessError Text
  | text t => .ok t
  | value => .error (.wrongKind (-1) value.kind .text)

/-- A number as a real. -/
def toReal : Value → Except AccessError Float
  | int n => .ok (Float.ofInt n.toInt)
  | value => value.asReal

end Value

end MiniPascal
