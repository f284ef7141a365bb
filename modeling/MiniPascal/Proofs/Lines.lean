import MiniPascal.Proofs.Scanning

/-! # The lines of a queue of streams

However its characters come in blocks, a stream is read as the lines of its text: what stands before
each line end, and what stands after the last one if that is not empty and the stream does not fail.
One carriage return at the end of a line is dropped. The streams are read in order, up to the first one
that fails.
-/

namespace MiniPascal

/-- The text of some lines, each with its end. -/
def joinLines (lines : List (List Char)) : List Char := lines.flatMap (· ++ ['\n'])

/-- The lines of a text that have an end, and what follows the last line end. -/
def breakLines : List Char → List (List Char) × List Char
  | [] => ([], [])
  | c :: rest =>
    if c = '\n' then ([] :: (breakLines rest).1, (breakLines rest).2)
    else match breakLines rest with
      | ([], last) => ([], c :: last)
      | (line :: lines, last) => ((c :: line) :: lines, last)

/-- The lines of a stream. -/
def Stream.lines (stream : Stream) : List (List Char) :=
  let (lines, last) := breakLines stream.chars
  (if stream.failing.isSome ∨ last = [] then lines else lines ++ [last]).map dropReturn

/-- The failure that a reader of lines tells: the end of the input is none. -/
def Failure.told : Failure → Option Failure
  | endOfInput => none
  | failure => some failure

/-- The lines of a queue of streams, and the failure that ends them. -/
def sourceLines : List Stream → List (List Char) × Option Failure
  | [] => ([], none)
  | stream :: streams =>
    match stream.failing with
    | none => (stream.lines ++ (sourceLines streams).1, (sourceLines streams).2)
    | some failure => (stream.lines, failure.told)

namespace Stream

theorem breakLines_eq (text : List Char) : breakLines text =
    (cutLine text).2.elim ([], (cutLine text).1) fun rest =>
      ((cutLine text).1 :: (breakLines rest).1, (breakLines rest).2) := by
  induction text with
  | nil => rfl
  | cons c text ih =>
    rw [breakLines, cutLine]
    by_cases newline : c = '\n'
    · rw [if_pos newline, if_pos newline]
      rfl
    · rw [if_neg newline, if_neg newline, ih]
      obtain ⟨piece, rest | rest⟩ := cutLine text <;> rfl

theorem cutLine_append (text more : List Char) : cutLine (text ++ more) =
    (cutLine text).2.elim ((cutLine text).1 ++ (cutLine more).1, (cutLine more).2) fun rest =>
      ((cutLine text).1, some (rest ++ more)) := by
  induction text with
  | nil => rfl
  | cons c text ih =>
    rw [List.cons_append, cutLine, cutLine, ih]
    by_cases newline : c = '\n'
    · rw [if_pos newline, if_pos newline]
      rfl
    · rw [if_neg newline, if_neg newline]
      obtain ⟨piece, rest | rest⟩ := cutLine text <;> rfl

/-- Reading through blocks is reading through their characters. -/
theorem cutLine_blocks (ready : List Char) (torn : Nat) (later : List Block) :
    cutLine (ready ++ later.flatMap (·.chars)) =
      ((readBlocks ready torn later).1,
        if (readBlocks ready torn later).2.1 then
          some ((readBlocks ready torn later).2.2.1 ++
            (readBlocks ready torn later).2.2.2.2.flatMap (·.chars))
        else none) := by
  induction later generalizing ready torn with
  | nil =>
    unfold readBlocks
    rw [cutLine_append]
    obtain ⟨piece, rest | rest⟩ := cutLine ready
    · simp [cutLine]
    · rfl
  | cons block later ih =>
    unfold readBlocks
    rw [cutLine_append, List.flatMap_cons, ih block.chars block.torn]
    obtain ⟨piece, rest | rest⟩ := cutLine ready <;> rfl

theorem cutLine_chars {stream rest : Stream} {piece : List Char} {found : Bool}
    (read : stream.readPiece = (piece, found, rest)) :
    cutLine stream.chars = (piece, if found then some rest.chars else none) ∧
      rest.failing = stream.failing := by
  have blocks := cutLine_blocks stream.ready stream.torn stream.later
  unfold readPiece at read
  cases read
  exact ⟨blocks, rfl⟩

variable {stream : Stream} {piece : List Char}

/-- A stream with a line end has the line before it, and the lines after it. -/
theorem lines_of_cut {rest : Stream} (cut : cutLine stream.chars = (piece, some rest.chars))
    (same : rest.failing = stream.failing) : stream.lines = dropReturn piece :: rest.lines := by
  unfold lines
  rw [breakLines_eq stream.chars, cut, same]
  dsimp only [Option.elim_some]
  split <;> simp

theorem lines_of_rest (cut : cutLine stream.chars = (piece, none)) :
    stream.lines = if stream.failing.isSome ∨ piece = [] then [] else [dropReturn piece] := by
  unfold lines
  rw [breakLines_eq stream.chars, cut]
  dsimp only [Option.elim_none]
  split <;> simp

end Stream

namespace Input

/-- The streams that are not read to their end. -/
def pending (input : Input) : List Stream := input.current.toList ++ input.queue

/-- What reading a line takes from the lines of a queue of streams. -/
def Takes (streams : List Stream) : Except Failure (List Char) × Input → Prop
  | (.ok line, after) => after.scan.text = [] ∧
      sourceLines streams = (line :: (sourceLines after.pending).1, (sourceLines after.pending).2)
  | (.error failure, _) => sourceLines streams = ([], failure.told)

theorem Takes.of_eq {streams others : List Stream} {result : Except Failure (List Char) × Input}
    (takes : Takes others result) (same : sourceLines streams = sourceLines others) :
    Takes streams result := by
  obtain ⟨_ | _, _⟩ := result
  · exact same.trans takes
  · exact ⟨takes.1, same.trans takes.2⟩

/-- What an attempt to read a line takes from a stream and those behind it. -/
def Reading.Takes (stream : Stream) (queue : List Stream) : Reading → Prop
  | .line text after => Input.Takes (stream :: queue) (.ok text, after)
  | .failed failure after => Input.Takes (stream :: queue) (.error failure, after)
  | .ended after => after.queue = queue ∧ sourceLines (stream :: queue) = sourceLines queue

theorem readStream_takes {input : Input} (fresh : input.scan.text = []) (stream : Stream) :
    (input.readStream stream).Takes stream input.queue := by
  unfold readStream
  rcases read : stream.readPiece with ⟨piece, found, rest⟩
  obtain ⟨cut, same⟩ := Stream.cutLine_chars read
  simp only [fresh, List.nil_append]
  cases found with
  | true =>
    refine ⟨rfl, ?_⟩
    have lines := Stream.lines_of_cut cut same
    change sourceLines (stream :: input.queue) =
      (dropReturn piece :: (sourceLines (rest :: input.queue)).1, (sourceLines (rest :: input.queue)).2)
    simp only [sourceLines]
    rw [same, lines]
    cases stream.failing <;> rfl
  | false =>
    have lines := Stream.lines_of_rest cut
    cases failing : stream.failing with
    | some failure =>
      have none : sourceLines (stream :: input.queue) = ([], failure.told) := by
        rw [sourceLines, failing, lines, failing]
        rfl
      exact none
    | none =>
      rw [failing] at lines
      have whole : sourceLines (stream :: input.queue) =
          (stream.lines ++ (sourceLines input.queue).1, (sourceLines input.queue).2) := by
        rw [sourceLines, failing]
      by_cases left : piece = []
      · rw [if_pos (.inr left)] at lines
        rw [lines] at whole
        simp only [left]
        exact ⟨rfl, whole⟩
      · rw [if_neg (by simp [left])] at lines
        rw [lines] at whole
        simp only [Bool.false_eq_true, if_false, if_pos left]
        exact ⟨rfl, whole⟩

theorem readQueue_takes (queue : List Stream) (input : Input) :
    Takes queue (input.readQueue queue) := by
  induction queue generalizing input with
  | nil => rfl
  | cons stream queue ih =>
    have takes := @readStream_takes (input.turnTo stream queue) rfl stream
    unfold readQueue
    cases reading : (input.turnTo stream queue).readStream stream with
    | line line after | failed failure after =>
      rw [reading] at takes
      exact takes
    | ended after =>
      rw [reading] at takes
      exact (ih after).of_eq takes.2

theorem readLine_takes {input : Input} (fresh : input.scan.text = []) :
    Takes input.pending input.readLine := by
  unfold readLine pending
  cases current : input.current with
  | none => exact readQueue_takes input.queue input
  | some stream =>
    have takes := readStream_takes fresh stream
    cases reading : input.readStream stream with
    | line line after | failed failure after =>
      rw [reading] at takes
      simp only [reading]
      exact takes
    | ended after =>
      rw [reading] at takes
      obtain ⟨same, lines⟩ := takes
      simp only [reading]
      rw [same]
      exact (readQueue_takes input.queue after).of_eq lines

theorem drain_eq (fuel : Nat) {input : Input} (fresh : input.scan.text = [])
    (enough : input.unread < fuel) : input.drain fuel = sourceLines input.pending := by
  induction fuel generalizing input with
  | zero => omega
  | succ fuel ih =>
    have takes := readLine_takes fresh
    unfold drain
    rcases read : input.readLine with ⟨failure | line, after⟩
    · rw [read] at takes
      rw [show sourceLines input.pending = _ from takes]
      cases failure <;> rfl
    · rw [read] at takes
      have less := readLine_unread read
      dsimp only
      rw [ih takes.1 (by omega), takes.2]

/-- The lines of an input are those of its streams. -/
theorem lines_ofStreams (streams : List Stream) : (ofStreams streams).lines = sourceLines streams :=
  drain_eq _ rfl (Nat.lt_succ_self _)

end Input

/-! ## Line ends -/

/-- A text is its lines, and no line has a line end in it. -/
theorem breakLines_spec (text : List Char) :
    joinLines (breakLines text).1 ++ (breakLines text).2 = text ∧
      (∀ line ∈ (breakLines text).1, '\n' ∉ line) ∧ '\n' ∉ (breakLines text).2 := by
  induction text with
  | nil => exact ⟨rfl, nofun, List.not_mem_nil⟩
  | cons c text ih =>
    obtain ⟨whole, plain, last⟩ := ih
    rw [breakLines]
    by_cases newline : c = '\n'
    · subst newline
      rw [if_pos rfl]
      exact ⟨congrArg ('\n' :: ·) whole, by simpa using plain, last⟩
    · rw [if_neg newline]
      rcases broken : breakLines text with ⟨_ | ⟨line, lines⟩, rest⟩ <;> rw [broken] at whole plain last
      · exact ⟨congrArg (c :: ·) whole, nofun, by simp [Ne.symm newline, last]⟩
      · refine ⟨congrArg (c :: ·) whole, ?_, last⟩
        rw [List.forall_mem_cons] at plain ⊢
        exact ⟨by simp [Ne.symm newline, plain.1], plain.2⟩

theorem dropReturn_subset (line : List Char) : dropReturn line ⊆ line := by
  unfold dropReturn
  split
  · exact List.dropLast_subset line
  · exact List.Subset.refl line

theorem Stream.lines_plain (stream : Stream) : ∀ line ∈ stream.lines, '\n' ∉ line := by
  obtain ⟨_, plain, last⟩ := breakLines_spec stream.chars
  intro line kept
  obtain ⟨row, member, rfl⟩ := List.mem_map.mp kept
  refine fun newline => absurd (dropReturn_subset row newline) ?_
  split at member
  · exact plain row member
  · obtain member | member := List.mem_append.mp member
    · exact plain row member
    · rw [List.mem_singleton.mp member]
      exact last

theorem sourceLines_plain (streams : List Stream) : ∀ line ∈ (sourceLines streams).1, '\n' ∉ line := by
  induction streams with
  | nil => exact nofun
  | cons stream streams ih =>
    unfold sourceLines
    cases stream.failing with
    | none =>
      intro line member
      exact (List.mem_append.mp member).elim (stream.lines_plain line) (ih line)
    | some failure => exact stream.lines_plain

/-! ## The text of a stream -/

/-- A text without the carriage returns before its line ends. -/
def dropReturns : List Char → List Char
  | [] => []
  | '\r' :: '\n' :: rest => '\n' :: dropReturns rest
  | c :: rest => c :: dropReturns rest

/-- A text with an end after its last line, unless that is empty. -/
def endLast (text : List Char) : List Char :=
  if (breakLines text).2 = [] then text else text ++ ['\n']

theorem dropReturns_cons {c : Char} {rest : List Char}
    (other : c ≠ '\r' ∨ ∀ d ∈ rest.head?, d ≠ '\n') :
    dropReturns (c :: rest) = c :: dropReturns rest := by
  rw [dropReturns]
  rintro more rfl rfl
  exact other.elim (absurd rfl) fun free => free '\n' rfl rfl

theorem dropReturn_cons (c d : Char) (line : List Char) :
    dropReturn (c :: d :: line) = c :: dropReturn (d :: line) := by
  unfold dropReturn
  rw [List.getLast?_cons_cons]
  split <;> rfl

theorem dropReturns_line {line : List Char} (plain : '\n' ∉ line) (rest : List Char) :
    dropReturns (line ++ '\n' :: rest) = dropReturn line ++ '\n' :: dropReturns rest := by
  induction line with
  | nil => exact dropReturns_cons (.inl (by decide))
  | cons c line ih =>
    rw [List.mem_cons, not_or] at plain
    cases line with
    | nil =>
      by_cases carriage : c = '\r'
      · subst carriage
        rfl
      · rw [List.cons_append, dropReturns_cons (.inl carriage), ih plain.2]
        simp [dropReturn, carriage]
    | cons d line =>
      have visible : d ≠ '\n' := fun newline => plain.2 (newline ▸ List.mem_cons_self)
      rw [List.cons_append, dropReturns_cons (.inr (by rintro _ ⟨⟩; exact visible)), ih plain.2,
        dropReturn_cons]
      rfl

theorem joinLines_dropReturn {lines : List (List Char)} (plain : ∀ line ∈ lines, '\n' ∉ line) :
    joinLines (lines.map dropReturn) = dropReturns (joinLines lines) := by
  induction lines with
  | nil => rfl
  | cons line lines ih =>
    rw [List.forall_mem_cons] at plain
    have whole : joinLines (line :: lines) = line ++ '\n' :: joinLines lines := by simp [joinLines]
    have kept : joinLines ((line :: lines).map dropReturn) =
        dropReturn line ++ '\n' :: joinLines (lines.map dropReturn) := by simp [joinLines]
    rw [whole, kept, dropReturns_line plain.1, ih plain.2]

/-- The lines of a stream that does not fail make up its text. -/
theorem Stream.joinLines_lines {stream : Stream} (fine : stream.failing = none) :
    joinLines stream.lines = dropReturns (endLast stream.chars) := by
  obtain ⟨whole, plain, last⟩ := breakLines_spec stream.chars
  unfold lines endLast
  rw [fine]
  generalize breakLines stream.chars = broken at *
  obtain ⟨lines, rest⟩ := broken
  dsimp only at *
  by_cases none : rest = []
  · rw [if_pos (.inr none), if_pos none, joinLines_dropReturn plain, ← whole, none, List.append_nil]
  · rw [if_neg (by simp [none]), if_neg none, joinLines_dropReturn, ← whole]
    · simp [joinLines]
    · intro line member
      obtain member | member := List.mem_append.mp member
      · exact plain line member
      · rw [List.mem_singleton.mp member]
        exact last

end MiniPascal
