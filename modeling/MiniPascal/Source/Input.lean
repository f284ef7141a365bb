import MiniPascal.Source.Stream
import MiniPascal.Text.Quoted

/-! # Reading lines from a queue of streams

Lines are read stream by stream. A line never joins the text of two streams; a stream's last line
counts even without a line end, unless it is empty; one carriage return before the line end is
dropped. A stream that fails keeps failing, and the streams behind it are never reached.
-/

namespace MiniPascal

structure Location where
  name : Text := []
  line : Nat := 0

def Location.toText (location : Location) : Text :=
  .join [location.name, ":", .ofNat location.line]

structure Line where
  location : Location := {}
  text : List Char := []

def Line.toText (line : Line) : Text :=
  .join [line.location.toText, " ", Text.quoted (.ofChars line.text)]

structure Input where
  /-- The stream that is being read. -/
  current : Option Stream := none
  /-- The streams after it. -/
  queue : List Stream
  /-- The line read last. -/
  last : Line := {}
  /-- The line being read. -/
  scan : Line := {}
  /-- Whether the streams are files that have to be closed. -/
  closable : Bool := false

/-- A line without one carriage return at its end. -/
def dropReturn (line : List Char) : List Char :=
  if line.getLast? = some '\r' then line.dropLast else line

namespace Input

def ofStreams (streams : List Stream) : Input := { queue := streams }

/-- An input that reads one file and closes it in the end. -/
def ofFile (stream : Stream) : Input := { queue := [stream], closable := true }

/-- Completes the line being read. -/
def finishLine (input : Input) : List Char × Input :=
  let text := dropReturn input.scan.text
  (text,
    { input with
      last := ⟨input.scan.location, text⟩
      scan := ⟨{ input.scan.location with line := input.scan.location.line + 1 }, []⟩ })

def turnTo (input : Input) (stream : Stream) (queue : List Stream) : Input :=
  { input with current := some stream, queue, scan := ⟨⟨stream.name, 1⟩, []⟩ }

/-- How an attempt to read a line from the current stream came out. -/
inductive Reading where
  | line (text : List Char) (input : Input)
  | failed (failure : Failure) (input : Input)
  /-- The stream is used up and no line is left in it. -/
  | ended (input : Input)

def readStream (input : Input) (stream : Stream) : Reading :=
  let (piece, found, rest) := stream.readPiece
  let input := { input with current := some rest, scan := { input.scan with text := input.scan.text ++ piece } }
  if found then
    let (text, input) := input.finishLine
    .line text input
  else match stream.failing with
    | some failure => .failed failure input
    | none =>
      let input := { input with current := none }
      if input.scan.text ≠ [] then
        let (text, input) := input.finishLine
        .line text input
      else .ended input

/-- Reads a line from the streams of the queue. -/
def readQueue (input : Input) : List Stream → Except Failure (List Char) × Input
  | [] => (.error .endOfInput, { input with queue := [] })
  | stream :: queue =>
    match (input.turnTo stream queue).readStream stream with
    | .line text input => (.ok text, input)
    | .failed failure input => (.error failure, input)
    | .ended input => readQueue input queue

def readLine (input : Input) : Except Failure (List Char) × Input :=
  match input.current with
  | none => input.readQueue input.queue
  | some stream =>
    match input.readStream stream with
    | .line text input => (.ok text, input)
    | .failed failure input => (.error failure, input)
    | .ended input => input.readQueue input.queue

/-- An upper bound on the number of lines that are still to come. -/
def unread (input : Input) : Nat :=
  (input.current.elim 0 fun stream => stream.chars.length + 1) +
    (input.queue.flatMap (·.chars)).length + input.queue.length

/-- All lines still to come, and the failure that ends them if it is not the end of the input. -/
def drain : (fuel : Nat) → Input → List (List Char) × Option Failure
  | 0, _ => ([], none)
  | fuel + 1, input =>
    match input.readLine with
    | (.ok line, input) =>
      let (lines, failure) := drain fuel input
      (line :: lines, failure)
    | (.error .endOfInput, _) => ([], none)
    | (.error failure, _) => ([], some failure)

/-- All lines of an input, and the failure that ends them if it is not the end of the input. -/
def lines (input : Input) : List (List Char) × Option Failure := input.drain (input.unread + 1)

/-- Closes the file that is being read, if there is one. -/
def close (input : Input) : Input :=
  if input.closable then
    { input with
      current := input.current.map Stream.close
      queue := input.queue.map Stream.close
      closable := false }
  else input

end Input

end MiniPascal
