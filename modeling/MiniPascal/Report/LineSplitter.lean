import MiniPascal.Output.Device

/-! # Cutting output into lines

A splitter takes bytes in chunks of any size and hands on complete lines, without their line ends.
A line without an end is kept until it is completed, or until it is asked for.
-/

namespace MiniPascal

/-- The bytes since the last line end. -/
structure LineSplitter where
  pending : Bytes := []

namespace LineSplitter

/-- The bytes before the first line end, and those after it. -/
def cut : Bytes → Bytes × Option Bytes
  | [] => ([], none)
  | byte :: rest =>
    if byte = '\n'.toUInt8 then ([], some rest)
    else
      let (line, after) := cut rest
      (byte :: line, after)

/-- Cutting at a line end loses nothing but the line end. -/
theorem cut_of_some {bytes line after : Bytes} (ended : cut bytes = (line, some after)) :
    bytes = line ++ '\n'.toUInt8 :: after := by
  induction bytes generalizing line with
  | nil => simp [cut] at ended
  | cons byte rest ih =>
    rw [cut] at ended
    split at ended
    · rename_i isEnd
      simp only [Prod.mk.injEq, Option.some.injEq] at ended
      obtain ⟨rfl, rfl⟩ := ended
      simp [isEnd]
    · simp only [Prod.mk.injEq] at ended
      obtain ⟨rfl, later⟩ := ended
      simpa using ih (Prod.ext rfl later)

/-- Without a line end the line is all there is. -/
theorem cut_of_none {bytes line : Bytes} (unended : cut bytes = (line, none)) : line = bytes := by
  induction bytes generalizing line with
  | nil => simpa [cut] using unended.symm
  | cons byte rest ih =>
    rw [cut] at unended
    split at unended
    · simp at unended
    · simp only [Prod.mk.injEq] at unended
      obtain ⟨rfl, later⟩ := unended
      simpa using ih (Prod.ext rfl later)

/-- The lines of a chunk, the first of which starts with `pending`, and what is left without an end. -/
def breakUp (pending chunk : Bytes) : List Bytes × Bytes :=
  match _ended : cut chunk with
  | (line, none) => ([], pending ++ line)
  | (line, some rest) =>
    let (lines, left) := breakUp [] rest
    ((pending ++ line) :: lines, left)
termination_by chunk.length
decreasing_by
  have length := congrArg List.length (cut_of_some _ended)
  rw [List.length_append, List.length_cons] at length
  omega

/-- Takes in a chunk, and hands on the lines that it completes. -/
def write (splitter : LineSplitter) (chunk : Bytes) : Written × List Bytes × LineSplitter :=
  let (lines, pending) := breakUp splitter.pending chunk
  (⟨chunk.length, none⟩, lines, ⟨pending⟩)

/-- Hands on the line that has no end yet, unless it is empty. -/
def sync (splitter : LineSplitter) : List Bytes × LineSplitter :=
  if splitter.pending = [] then ([], splitter) else ([splitter.pending], ⟨[]⟩)

end LineSplitter

end MiniPascal
