import MiniPascal.Failure
import MiniPascal.Text.Utf8

/-! # Streams of characters

A stream hands over its characters block by block, as they are fetched, and then either ends or
fails for ever. A block may end inside a character, whose missing bytes come with the next block;
only a stream that is closed in between shows such a torn character, as replacement characters.
-/

namespace MiniPascal

/-- What one fetch brings: whole characters, and how many bytes of a torn one follow them. -/
structure Block where
  chars : List Char
  torn : Nat := 0

/-- Reads a block after passing over `skip` bytes; what is left over starts a torn character. -/
def Block.split : (skip : Nat) → Bytes → List Char × Bytes
  | _, [] => ([], [])
  | skip + 1, _ :: rest => split skip rest
  | 0, byte :: rest =>
    match Lead.of (byte :: rest) with
    | .char c size =>
      let (chars, torn) := split (size - 1) rest
      (c :: chars, torn)
    | .broken =>
      let (chars, torn) := split 0 rest
      ((Glyph.stray byte).toChar :: chars, torn)
    | .short => ([], byte :: rest)

/-- The blocks of a file that is fetched `size` bytes at a time. -/
def Block.ofFile (size : Nat) : (fuel : Nat) → Bytes → List Block
  | 0, _ => []
  | fuel + 1, bytes =>
    let fetched := bytes.take size
    let rest := bytes.drop size
    if bytes = [] then []
    else if rest = [] then [⟨(Text.ofBytes fetched).chars, 0⟩]
    else
      let (chars, torn) := split 0 fetched
      ⟨chars, torn.length⟩ :: ofFile size fuel (torn ++ rest)

/-- A named sequence of characters, part of it fetched already. -/
structure Stream where
  name : Text
  /-- Characters that are fetched and not yet read. -/
  ready : List Char := []
  /-- Bytes of a torn character behind them. -/
  torn : Nat := 0
  /-- What is not fetched yet. -/
  later : List Block
  /-- How reading fails after the last character; otherwise the stream ends there. -/
  failing : Option Failure := none

namespace Stream

def ofBytes (name : Text) (bytes : Bytes) (failing : Option Failure) : Stream :=
  { name, later := [⟨(Text.ofBytes bytes).chars, 0⟩], failing }

def fetchSize : Nat := 4096

def ofFile (name : Text) (bytes : Bytes) : Stream :=
  { name, later := Block.ofFile fetchSize (bytes.length + 1) bytes }

/-- The stream of a directory, which can be opened and not read. -/
def ofDirectory (name : Text) : Stream :=
  { name, later := []
    failing := some (.reported (.join ["read ", name, ": is a directory"])) }

/-- The stream of a file that has been closed: what is fetched can still be read. -/
def close (stream : Stream) : Stream :=
  { stream with
    ready := stream.ready ++ List.replicate stream.torn '\uFFFD'
    torn := 0
    later := []
    failing := some (.reported (.join ["read ", stream.name, ": file already closed"])) }

/-- All characters that are still to be read. -/
def chars (stream : Stream) : List Char := stream.ready ++ stream.later.flatMap (·.chars)

/-- The text up to the first line end, and what follows that line end. -/
def cutLine : List Char → List Char × Option (List Char)
  | [] => ([], none)
  | c :: rest =>
    if c = '\n' then ([], some rest)
    else
      let (line, after) := cutLine rest
      (c :: line, after)

/-- Reads on through the blocks to come, up to the first line end: the text before it, whether it
was found, and what is fetched and what is not after it. -/
def readBlocks (ready : List Char) (torn : Nat) (later : List Block) :
    List Char × Bool × List Char × Nat × List Block :=
  match cutLine ready with
  | (piece, some rest) => (piece, true, rest, torn, later)
  | (piece, none) =>
    match later with
    | [] => (piece, false, [], torn, [])
    | block :: more =>
      let (next, found, state) := readBlocks block.chars block.torn more
      (piece ++ next, found, state)
termination_by structural later

/-- Reads up to the first line end, if there is one: the text before it, whether it was found, and
the stream after it. -/
def readPiece (stream : Stream) : List Char × Bool × Stream :=
  let (piece, found, ready, torn, later) := readBlocks stream.ready stream.torn stream.later
  (piece, found, { stream with ready, torn, later })

end Stream

end MiniPascal
