import MiniPascal.Output.Console
import MiniPascal.Source.Input
import MiniPascal.Text.Blank
import MiniPascal.Decimal.Whole

/-! # Where integers come from

Integers are typed one per line, at a prompt that is repeated until the line holds an integer, or
come from a script.
-/

namespace MiniPascal

/-- What is written after a line that holds no integer. -/
def retryMessage : Text := "Not an integer, try again"

/-- The integer a line holds, with white space around it. -/
def lineInteger? (line : List Char) : Option Int64 := readWhole? (trimBlanks line)

/-- A console to prompt on and the lines typed at it. -/
structure LineReader where
  console : Console
  input : Input

namespace LineReader

/-- Shows a text at once. -/
def display (reader : LineReader) (text : Text) : Option Failure × LineReader :=
  let (written, console) := reader.console.write text.bytes
  match written.failure with
  | some failure => (some failure, { reader with console })
  | none =>
    let (failure, console) := console.flush
    (failure, { reader with console })

/-- Prompts for an integer, for at most `fuel` lines. -/
def readWithin : (fuel : Nat) → (prompt : Text) → LineReader → Except Failure Int64 × LineReader
  | 0, _, reader => (.error .endOfInput, reader)
  | fuel + 1, prompt, reader =>
    match reader.display prompt with
    | (some failure, reader) => (.error failure, reader)
    | (none, reader) =>
      match reader.input.readLine with
      | (.error failure, input) => (.error failure, { reader with input })
      | (.ok line, input) =>
        let reader := { reader with input }
        match lineInteger? line with
        | some n => (.ok n, reader)
        | none =>
          match reader.display retryMessage.line with
          | (some failure, reader) => (.error failure, reader)
          | (none, reader) => readWithin fuel prompt reader

def readInteger (reader : LineReader) (prompt : Text) : Except Failure Int64 × LineReader :=
  readWithin (reader.input.unread + 1) prompt reader

end LineReader

/-- A script of integers, which ends with a failure. -/
structure Script where
  integers : List Int64
  ending : Failure
  /-- Whether the script can be closed, and how closing it fails. -/
  closable : Bool := true
  closing : Option Failure := none
  /-- The prompts given so far, the newest first. -/
  prompts : List Text := []
  closed : Nat := 0

namespace Script

def read (script : Script) (prompt : Text) : Except Failure Int64 × Script :=
  let script := { script with prompts := prompt :: script.prompts }
  match script.integers with
  | n :: integers => (.ok n, { script with integers })
  | [] => (.error script.ending, script)

def close (script : Script) : Option Failure × Script :=
  if script.closable then (script.closing, { script with closed := script.closed + 1 })
  else (none, script)

end Script

end MiniPascal
