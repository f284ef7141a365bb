import MiniPascal.Proofs.Lines

/-! # Reading line by line

What one request for a line after the other brings, from any queue of streams. First come the lines of the
streams, in order, each with the name of its stream and its number there. If no stream fails, every later
request finds the end of the input, and the last line stays the last one. Otherwise the lines are those
that end before the first failure, every later request finds that failure, what the stream had after its
last line end stays in the line being read, and the streams behind it stay in the queue.
-/

namespace MiniPascal

/-- The lines of a stream with their places, if the first one has the given number. -/
def Stream.located (stream : Stream) (first : Nat) : List Line :=
  stream.lines.mapIdx fun k text => ⟨⟨stream.name, first + k⟩, text⟩

/-- The lines of a queue of streams with their places, up to the first stream that fails; the first line
of the first stream has the given number. -/
def locatedLines : (first : Nat) → List Stream → List Line
  | _, [] => []
  | first, stream :: streams =>
    stream.located first ++ if stream.failing.isSome then [] else locatedLines 1 streams

/-- What a failing stream has after its last line end, and where; its first line has the given number. -/
def Stream.unfinished (stream : Stream) (first : Nat) : Line :=
  ⟨⟨stream.name, first + (breakLines stream.chars).1.length⟩, (breakLines stream.chars).2⟩

namespace Stream

variable {stream rest : Stream} {piece : List Char}

theorem name_readPiece (stream : Stream) : stream.readPiece.2.2.name = stream.name := rfl

theorem readBlocks_of_not_found (ready : List Char) (torn : Nat) (later : List Block)
    (none : (readBlocks ready torn later).2.1 = false) :
    (readBlocks ready torn later).2.2.1 = [] ∧ (readBlocks ready torn later).2.2.2.2 = [] := by
  induction later generalizing ready torn with
  | nil =>
    unfold readBlocks at none ⊢
    generalize cutLine ready = cut at none ⊢
    obtain ⟨piece, rest | rest⟩ := cut
    · exact ⟨rfl, rfl⟩
    · cases none
  | cons block later ih =>
    unfold readBlocks at none ⊢
    generalize cutLine ready = cut at none ⊢
    obtain ⟨piece, rest | rest⟩ := cut
    · exact ih _ _ none
    · cases none

/-- A stream without a line end is read up to its last character. -/
theorem chars_of_not_found (read : stream.readPiece = (piece, false, rest)) : rest.chars = [] := by
  have none : (readBlocks stream.ready stream.torn stream.later).2.1 = false :=
    congrArg (·.2.1) read
  obtain ⟨ready, later⟩ := readBlocks_of_not_found _ _ _ none
  have same : rest = stream.readPiece.2.2 := by rw [read]
  rw [same]
  change (readBlocks _ _ _).2.2.1 ++ (readBlocks _ _ _).2.2.2.2.flatMap (·.chars) = []
  rw [ready, later]
  rfl

theorem located_of_cut (cut : cutLine stream.chars = (piece, some rest.chars))
    (same : rest.failing = stream.failing) (name : rest.name = stream.name) (first : Nat) :
    stream.located first = ⟨⟨stream.name, first⟩, dropReturn piece⟩ :: rest.located (first + 1) := by
  unfold located
  rw [lines_of_cut cut same, List.mapIdx_cons, name]
  simp only [Nat.add_zero, Nat.add_assoc, Nat.add_comm 1]

theorem unfinished_of_cut (cut : cutLine stream.chars = (piece, some rest.chars))
    (name : rest.name = stream.name) (first : Nat) :
    stream.unfinished first = rest.unfinished (first + 1) := by
  unfold unfinished
  rw [breakLines_eq stream.chars, cut, name]
  simp only [Option.elim_some, List.length_cons, Nat.add_assoc, Nat.add_comm 1]

theorem located_of_rest (cut : cutLine stream.chars = (piece, none)) (first : Nat) :
    stream.located first = if stream.failing.isSome ∨ piece = [] then []
      else [⟨⟨stream.name, first⟩, dropReturn piece⟩] := by
  unfold located
  rw [lines_of_rest cut]
  split <;> rfl

theorem unfinished_of_rest (cut : cutLine stream.chars = (piece, none)) (first : Nat) :
    stream.unfinished first = ⟨⟨stream.name, first⟩, piece⟩ := by
  unfold unfinished
  rw [breakLines_eq stream.chars, cut]
  rfl

end Stream

/-- How the lines of a queue of streams break off, if a stream fails: the failure, what is left of the
line being read, and the streams that are not reached. -/
def breakdown : (first : Nat) → List Stream → Option (Failure × Line × List Stream)
  | _, [] => none
  | first, stream :: streams =>
    stream.failing.elim (breakdown 1 streams) fun failure =>
      some (failure, stream.unfinished first, streams)

namespace Input

/-! ## States of an input -/

/-- Streams are still to be read, the first of them from the given line on. -/
structure Awaits (input : Input) (first : Nat) (streams : List Stream) : Prop where
  pending : input.pending = streams
  fresh : input.scan.text = []
  numbered : input.current.elim (first = 1) fun stream => input.scan.location = ⟨stream.name, first⟩

/-- All streams are read to their end. -/
structure Exhausted (input : Input) : Prop where
  current : input.current = none
  queue : input.queue = []

/-- A stream is read to its end and fails, with `unfinished` after its last line end. -/
structure Broken (input : Input) (failure : Failure) (unfinished : Line) (later : List Stream) :
    Prop where
  current : ∃ stream, input.current = some stream ∧ stream.chars = [] ∧ stream.failing = some failure
  scan : input.scan = unfinished
  queue : input.queue = later

variable {input : Input}

theorem Exhausted.readLine (exhausted : input.Exhausted) :
    input.readLine.1 = .error .endOfInput ∧ input.readLine.2.Exhausted ∧
      input.readLine.2.last = input.last := by
  unfold Input.readLine
  rw [exhausted.current, exhausted.queue]
  exact ⟨rfl, ⟨exhausted.current, rfl⟩, rfl⟩

theorem Broken.readLine {failure : Failure} {unfinished : Line} {later : List Stream}
    (broken : input.Broken failure unfinished later) :
    input.readLine.1 = .error failure ∧ input.readLine.2.Broken failure unfinished later ∧
      input.readLine.2.last = input.last := by
  obtain ⟨stream, current, none, fails⟩ := broken.current
  rcases read : stream.readPiece with ⟨piece, found, rest⟩
  obtain ⟨cut, same⟩ := Stream.cutLine_chars read
  rw [none] at cut
  cases found with
  | true => cases cut
  | false =>
    cases cut
    unfold Input.readLine readStream
    simp only [current, read, Bool.false_eq_true, if_false, fails]
    refine ⟨trivial, ⟨⟨rest, rfl, Stream.chars_of_not_found read, same.trans fails⟩, ?_, broken.queue⟩, trivial⟩
    rw [← broken.scan, List.append_nil]

/-! ## One request -/

/-- What a request for a line brings while streams are still to be read. The line read last is given. -/
inductive Serves (before : Line) (first : Nat) (streams : List Stream) :
    Except Failure (List Char) × Input → Prop
  | line {line : Line} {after : Input} {first' : Nat} {streams' : List Stream}
      (lines : locatedLines first streams = line :: locatedLines first' streams')
      (ending : breakdown first streams = breakdown first' streams') (last : after.last = line)
      (awaits : after.Awaits first' streams') : Serves before first streams (.ok line.text, after)
  | ended {after : Input} (lines : locatedLines first streams = [])
      (ending : breakdown first streams = none) (last : after.last = before)
      (exhausted : after.Exhausted) : Serves before first streams (.error .endOfInput, after)
  | failed {failure : Failure} {unfinished : Line} {later : List Stream} {after : Input}
      (lines : locatedLines first streams = [])
      (ending : breakdown first streams = some (failure, unfinished, later))
      (last : after.last = before) (broken : after.Broken failure unfinished later) :
      Serves before first streams (.error failure, after)

theorem Serves.of_eq {before : Line} {first first' : Nat} {streams streams' : List Stream}
    {result : Except Failure (List Char) × Input} (serves : Serves before first' streams' result)
    (lines : locatedLines first streams = locatedLines first' streams')
    (ending : breakdown first streams = breakdown first' streams') :
    Serves before first streams result := by
  cases serves with
  | line next same last awaits => exact .line (lines.trans next) (ending.trans same) last awaits
  | ended none same last exhausted => exact .ended (lines.trans none) (ending.trans same) last exhausted
  | failed none same last broken => exact .failed (lines.trans none) (ending.trans same) last broken

/-- What an attempt to read a line from a stream brings. -/
def Reading.Serves (before : Line) (first : Nat) (stream : Stream) (queue : List Stream) :
    Reading → Prop
  | .line text after => Input.Serves before first (stream :: queue) (.ok text, after)
  | .failed failure after => Input.Serves before first (stream :: queue) (.error failure, after)
  | .ended after => after.queue = queue ∧ after.current = none ∧ after.last = before ∧
      locatedLines first (stream :: queue) = locatedLines 1 queue ∧
      breakdown first (stream :: queue) = breakdown 1 queue

theorem readStream_serves {stream : Stream} {first : Nat} (fresh : input.scan.text = [])
    (numbered : input.scan.location = ⟨stream.name, first⟩) :
    (input.readStream stream).Serves input.last first stream input.queue := by
  unfold readStream
  rcases read : stream.readPiece with ⟨piece, found, rest⟩
  obtain ⟨cut, same⟩ := Stream.cutLine_chars read
  have name : rest.name = stream.name := by rw [← stream.name_readPiece, read]
  simp only [fresh, List.nil_append]
  cases found with
  | true =>
    have lines : locatedLines first (stream :: input.queue) =
        ⟨⟨stream.name, first⟩, dropReturn piece⟩ :: locatedLines (first + 1) (rest :: input.queue) := by
      rw [locatedLines, locatedLines, Stream.located_of_cut cut same name, same]
      rfl
    have ending : breakdown first (stream :: input.queue) =
        breakdown (first + 1) (rest :: input.queue) := by
      rw [breakdown, breakdown, same, Stream.unfinished_of_cut cut name]
    refine .line lines ending ?_ ⟨rfl, rfl, ?_⟩
    · simp only [finishLine, numbered]
    · simp only [finishLine, numbered, name, Option.elim_some]
  | false =>
    have located := Stream.located_of_rest cut first
    have unfinished := Stream.unfinished_of_rest cut first
    cases failing : stream.failing with
    | some failure =>
      rw [failing] at located
      have lines : locatedLines first (stream :: input.queue) = [] := by
        rw [locatedLines, located, failing]
        rfl
      have ending : breakdown first (stream :: input.queue) =
          some (failure, ⟨⟨stream.name, first⟩, piece⟩, input.queue) := by
        rw [breakdown, failing, Option.elim_some, unfinished]
      refine .failed lines ending rfl ⟨⟨rest, rfl, Stream.chars_of_not_found read, ?_⟩, ?_, rfl⟩
      · rw [same, failing]
      · rw [numbered]
    | none =>
      rw [failing] at located
      have lines : locatedLines first (stream :: input.queue) =
          stream.located first ++ locatedLines 1 input.queue := by
        rw [locatedLines, failing]
        rfl
      have ending : breakdown first (stream :: input.queue) = breakdown 1 input.queue := by
        rw [breakdown, failing]
        rfl
      by_cases left : piece = []
      · rw [located, if_pos (.inr left)] at lines
        simp only [left]
        exact ⟨rfl, rfl, rfl, lines, ending⟩
      · rw [located, if_neg (by simp [left])] at lines
        simp only [Bool.false_eq_true, if_false, if_pos left]
        refine .line lines ending ?_ ⟨rfl, rfl, rfl⟩
        simp only [finishLine, numbered]

theorem readQueue_serves (queue : List Stream) {input : Input} (unread : input.current = none) :
    Serves input.last 1 queue (input.readQueue queue) := by
  induction queue generalizing input with
  | nil => exact .ended rfl rfl rfl ⟨unread, rfl⟩
  | cons stream queue ih =>
    have serves := @readStream_serves (input.turnTo stream queue) stream 1 rfl rfl
    unfold readQueue
    cases reading : (input.turnTo stream queue).readStream stream with
    | line text after | failed failure after =>
      rw [reading] at serves
      exact serves
    | ended after =>
      rw [reading] at serves
      obtain ⟨_, unread, last, lines, ending⟩ := serves
      exact last ▸ (ih unread).of_eq lines ending

theorem Awaits.readLine {first : Nat} {streams : List Stream} (awaits : input.Awaits first streams) :
    Serves input.last first streams input.readLine := by
  obtain ⟨rfl, fresh, numbered⟩ := awaits
  unfold Input.readLine Input.pending
  cases current : input.current with
  | none =>
    rw [current] at numbered
    cases numbered
    exact readQueue_serves input.queue current
  | some stream =>
    rw [current] at numbered
    have serves := readStream_serves fresh numbered
    cases reading : input.readStream stream with
    | line text after | failed failure after =>
      rw [reading] at serves
      simp only [reading]
      exact serves
    | ended after =>
      rw [reading] at serves
      obtain ⟨queue, unread, last, lines, ending⟩ := serves
      simp only [reading]
      rw [queue]
      exact last ▸ (readQueue_serves input.queue unread).of_eq lines ending

/-! ## Any number of requests -/

/-- The input after some requests for a line. -/
def after (input : Input) : Nat → Input
  | 0 => input
  | k + 1 => input.readLine.2.after k

theorem Exhausted.after (exhausted : input.Exhausted) (k : Nat) :
    (input.after k).Exhausted ∧ (input.after k).last = input.last := by
  induction k generalizing input with
  | zero => exact ⟨exhausted, rfl⟩
  | succ k ih =>
    obtain ⟨_, exhausted, last⟩ := exhausted.readLine
    exact (ih exhausted).imp_right (·.trans last)

theorem Broken.after {failure : Failure} {unfinished : Line} {later : List Stream}
    (broken : input.Broken failure unfinished later) (k : Nat) :
    (input.after k).Broken failure unfinished later ∧ (input.after k).last = input.last := by
  induction k generalizing input with
  | zero => exact ⟨broken, rfl⟩
  | succ k ih =>
    obtain ⟨_, broken, last⟩ := broken.readLine
    exact (ih broken).imp_right (·.trans last)

/-- What a request for a line brings when there is no line left. -/
def BringsNone (result : Except Failure (List Char) × Input) :
    Option (Failure × Line × List Stream) → Prop
  | none => result.1 = .error .endOfInput
  | some (failure, unfinished, later) =>
    result.1 = .error failure ∧ result.2.scan = unfinished ∧ result.2.queue = later

/-- Lines are brought one after the other, and then none for ever. -/
theorem Awaits.reads {first : Nat} {streams : List Stream} (awaits : input.Awaits first streams)
    (k : Nat) :
    (∀ line, (locatedLines first streams)[k]? = some line →
      (input.after k).readLine.1 = .ok line.text ∧ (input.after k).readLine.2.last = line) ∧
    ((locatedLines first streams).length ≤ k →
      (input.after k).readLine.2.last = (locatedLines first streams).getLast?.getD input.last ∧
      BringsNone (input.after k).readLine (breakdown first streams)) := by
  induction k generalizing input first streams with
  | zero =>
    have serves := awaits.readLine
    change (∀ line, _ → input.readLine.1 = _ ∧ input.readLine.2.last = _) ∧
      (_ → input.readLine.2.last = _ ∧ BringsNone input.readLine _)
    generalize input.readLine = result at serves
    cases serves with
    | line lines ending last =>
      rw [lines]
      refine ⟨?_, fun none => absurd none (Nat.not_succ_le_zero _)⟩
      rintro _ ⟨⟩
      exact ⟨rfl, last⟩
    | ended lines ending last =>
      rw [lines, ending]
      refine ⟨?_, fun _ => ⟨last, rfl⟩⟩
      rintro _ ⟨⟩
    | failed lines ending last broken =>
      rw [lines, ending]
      refine ⟨?_, fun _ => ⟨last, rfl, broken.scan, broken.queue⟩⟩
      rintro _ ⟨⟩
  | succ k ih =>
    have serves := awaits.readLine
    change (∀ line, _ → (input.readLine.2.after k).readLine.1 = _ ∧
        (input.readLine.2.after k).readLine.2.last = _) ∧
      (_ → (input.readLine.2.after k).readLine.2.last = _ ∧
        BringsNone (input.readLine.2.after k).readLine _)
    generalize input.readLine = result at serves
    cases serves with
    | line lines ending last awaits =>
      obtain ⟨brings, ends⟩ := ih awaits
      rw [lines, ending]
      refine ⟨brings, fun many => ?_⟩
      rw [List.getLast?_cons, Option.getD_some, ← last]
      exact ends (Nat.le_of_succ_le_succ many)
    | ended lines ending last exhausted =>
      obtain ⟨exhausted, kept⟩ := exhausted.after k
      obtain ⟨fails, _, same⟩ := exhausted.readLine
      rw [lines, ending]
      refine ⟨?_, fun _ => ⟨same.trans (kept.trans last), fails⟩⟩
      rintro _ ⟨⟩
    | failed lines ending last broken =>
      obtain ⟨broken, kept⟩ := broken.after k
      obtain ⟨fails, broken, same⟩ := broken.readLine
      rw [lines, ending]
      refine ⟨?_, fun _ => ⟨same.trans (kept.trans last), fails, broken.scan, broken.queue⟩⟩
      rintro _ ⟨⟩

end Input

theorem breakdown_of_ends (first : Nat) {streams : List Stream}
    (ends : ∀ stream ∈ streams, stream.failing = none) : breakdown first streams = none := by
  induction streams generalizing first with
  | nil => rfl
  | cons stream streams ih =>
    rw [List.forall_mem_cons] at ends
    rw [breakdown, ends.1]
    exact ih 1 ends.2

theorem breakdown_of_fails {before : List Stream} {stream : Stream} {failure : Failure}
    (ends : ∀ other ∈ before, other.failing = none) (fails : stream.failing = some failure)
    (later : List Stream) :
    breakdown 1 (before ++ stream :: later) = some (failure, stream.unfinished 1, later) := by
  induction before with
  | nil =>
    rw [List.nil_append, breakdown, fails]
    rfl
  | cons other before ih =>
    rw [List.forall_mem_cons] at ends
    rw [List.cons_append, breakdown, ends.1]
    exact ih ends.2

/-- Requests bring the lines of the streams in order, with their places, up to the first stream that
fails. After that they find the end of the input or this failure. -/
theorem lines_are_read_in_order (streams : List Stream) (k : Nat) :
    let lines := locatedLines 1 streams
    let result := ((Input.ofStreams streams).after k).readLine
    (∀ line, lines[k]? = some line → result.1 = .ok line.text ∧ result.2.last = line) ∧
    (lines.length ≤ k → result.2.last = lines.getLast?.getD {} ∧
      ((∀ stream ∈ streams, stream.failing = none) → result.1 = .error .endOfInput) ∧
      ∀ before stream later failure, streams = before ++ stream :: later →
        (∀ other ∈ before, other.failing = none) → stream.failing = some failure →
        result.1 = .error failure ∧ result.2.scan = stream.unfinished 1 ∧ result.2.queue = later) := by
  intro lines result
  have awaits : (Input.ofStreams streams).Awaits 1 streams := ⟨rfl, rfl, rfl⟩
  obtain ⟨brings, none⟩ := awaits.reads k
  refine ⟨brings, fun many => ?_⟩
  obtain ⟨last, ends⟩ := none many
  refine ⟨last, fun fine => ?_, ?_⟩
  · rw [breakdown_of_ends 1 fine] at ends
    exact ends
  · rintro before stream later failure rfl fine fails
    rw [breakdown_of_fails fine fails] at ends
    exact ends

theorem lines_are_read_up_to_a_failure :
    let good : Stream := { name := "good", later := [⟨"a\r\n\nb".toList, 0⟩] }
    let bad : Stream :=
      { name := "bad", later := [⟨"c\nd".toList, 0⟩], failing := some .cancelled }
    let input := Input.ofStreams [good, bad, good]
    (input.after 2).readLine.1 = .ok "b".toList ∧
    (input.after 2).readLine.2.last.location = ⟨"good", 3⟩ ∧
    (input.after 3).readLine.1 = .ok "c".toList ∧
    (input.after 3).readLine.2.last.location = ⟨"bad", 1⟩ ∧
    (input.after 9).readLine.1 = .error .cancelled ∧
    (input.after 9).readLine.2.last.location = ⟨"bad", 1⟩ ∧
    (input.after 9).readLine.2.scan = ⟨⟨"bad", 2⟩, "d".toList⟩ ∧
    (input.after 9).readLine.2.queue = [good] := by
  intro good bad input
  obtain ⟨third, _⟩ := lines_are_read_in_order [good, bad, good] 2
  obtain ⟨fourth, _⟩ := lines_are_read_in_order [good, bad, good] 3
  obtain ⟨_, tenth⟩ := lines_are_read_in_order [good, bad, good] 9
  obtain ⟨text, last⟩ := third ⟨⟨"good", 3⟩, "b".toList⟩ rfl
  obtain ⟨text', last'⟩ := fourth ⟨⟨"bad", 1⟩, "c".toList⟩ rfl
  obtain ⟨kept, _, fails⟩ := tenth (by decide)
  obtain ⟨failure, scan, queue⟩ := fails [good] bad [good] .cancelled rfl
    (List.forall_mem_singleton.mpr rfl) rfl
  exact ⟨text, congrArg Line.location last, text', congrArg Line.location last', failure,
    congrArg Line.location kept, scan, queue⟩

end MiniPascal
