import MiniPascal.Proofs.LineReading
import MiniPascal.Proofs.Machine.Delivery

/-! # Asking for integers at a line reader

A line reader prompts until a line holds an integer. Whatever the lines are, the requests for integers
bring the integers of the lines that hold one, in their order, and then the end of the input. Each request
takes the lines up to the one that it brings. It shows its prompt for every line that it tries and once
more at the end of the input, and says after each line without an integer that it tries again.
-/

namespace MiniPascal

open Console

/-! ## Lines that are still to come -/

theorem Stream.located_text (stream : Stream) (first : Nat) :
    (stream.located first).map Line.text = stream.lines := by
  apply List.ext_getElem <;> simp [located]

theorem locatedLines_text (first : Nat) {streams : List Stream}
    (ends : ∀ stream ∈ streams, stream.failing = none) :
    (locatedLines first streams).map Line.text = (sourceLines streams).1 := by
  induction streams generalizing first with
  | nil => rfl
  | cons stream streams ih =>
    rw [List.forall_mem_cons] at ends
    rw [locatedLines, sourceLines, ends.1, List.map_append, stream.located_text]
    exact congrArg (stream.lines ++ ·) (ih 1 ends.2)

namespace Input

/-- An input brings these lines and then ends. -/
inductive Remains (input : Input) : List (List Char) → Prop
  | awaits {first : Nat} {streams : List Stream} (awaits : input.Awaits first streams)
      (ends : breakdown first streams = none) :
      Remains input ((locatedLines first streams).map Line.text)
  | exhausted (exhausted : input.Exhausted) : Remains input []

variable {input : Input} {line : List Char} {lines : List (List Char)}

theorem remains_ofStreams {streams : List Stream} (ends : ∀ stream ∈ streams, stream.failing = none) :
    (ofStreams streams).Remains (sourceLines streams).1 := by
  rw [← locatedLines_text 1 ends]
  exact .awaits ⟨rfl, rfl, rfl⟩ (breakdown_of_ends 1 ends)

theorem Remains.read (remains : input.Remains (line :: lines)) :
    ∃ after, input.readLine = (.ok line, after) ∧ after.Remains lines := by
  generalize whole : line :: lines = all at remains
  cases remains with
  | exhausted => cases whole
  | @awaits first streams awaits ends =>
    have serves := awaits.readLine
    generalize input.readLine = result at serves
    cases serves with
    | @line found after first' streams' rest ending _ later =>
      rw [rest] at whole
      cases whole
      exact ⟨after, rfl, .awaits later (ending.symm.trans ends)⟩
    | ended none =>
      rw [none] at whole
      cases whole
    | failed none =>
      rw [none] at whole
      cases whole

theorem Remains.read_none (remains : input.Remains []) :
    ∃ after, input.readLine = (.error .endOfInput, after) ∧ after.Remains [] := by
  generalize whole : [] = all at remains
  cases remains with
  | exhausted exhausted =>
    obtain ⟨fails, later, _⟩ := exhausted.readLine
    exact ⟨_, Prod.ext fails rfl, .exhausted later⟩
  | @awaits first streams awaits ends =>
    have serves := awaits.readLine
    generalize input.readLine = result at serves
    cases serves with
    | line rest =>
      rw [rest] at whole
      cases whole
    | ended none _ _ exhausted =>
      rw [none]
      exact ⟨_, rfl, .exhausted exhausted⟩
    | failed _ ending =>
      rw [ending] at ends
      cases ends

theorem Remains.length_le (remains : input.Remains lines) : lines.length ≤ input.unread := by
  induction lines generalizing input with
  | nil => exact Nat.zero_le _
  | cons line lines ih =>
    obtain ⟨after, read, later⟩ := remains.read
    have less := readLine_unread read
    exact Nat.lt_of_le_of_lt (ih later) less

theorem Remains.drain (remains : input.Remains lines) {fuel : Nat} (enough : lines.length < fuel) :
    input.drain fuel = (lines, none) := by
  induction lines generalizing input fuel with
  | nil =>
    obtain ⟨after, read, _⟩ := remains.read_none
    cases fuel with
    | zero => cases enough
    | succ fuel => simp only [Input.drain, read]
  | cons line lines ih =>
    obtain ⟨after, read, later⟩ := remains.read
    cases fuel with
    | zero => cases enough
    | succ fuel => simp only [Input.drain, read, ih later (Nat.lt_of_succ_lt_succ enough)]

theorem Remains.lines_eq (remains : input.Remains lines) : input.lines = (lines, none) :=
  remains.drain (Nat.lt_succ_of_le remains.length_le)

end Input

/-! ## What a request does with the lines -/

/-- Whether a line holds no integer. -/
def isRefused (line : List Char) : Bool := (lineInteger? line).isNone

/-- The answer to a request: the first integer that a line holds. -/
def firstInteger (lines : List (List Char)) : Except Failure Int64 :=
  (lines.findSome? lineInteger?).elim (.error .endOfInput) .ok

/-- The lines behind the first one that holds an integer. -/
def behindInteger (lines : List (List Char)) : List (List Char) := (lines.dropWhile isRefused).tail

/-- The lines behind the first `k` of those that hold an integer. -/
def behindIntegers : (k : Nat) → List (List Char) → List (List Char)
  | 0, lines => lines
  | k + 1, lines => behindIntegers k (behindInteger lines)

/-- What is shown during a request: the prompt, and for each line that is refused that it is, and the
prompt again. -/
def exchange (prompt : Text) (lines : List (List Char)) : Bytes :=
  (lines.takeWhile isRefused).flatMap (fun _ => prompt.bytes ++ retryMessage.line.bytes) ++ prompt.bytes

section Lines

variable {line : List Char} {n : Int64} (lines : List (List Char)) (prompt : Text)

theorem request_of_integer (holds : lineInteger? line = some n) :
    firstInteger (line :: lines) = .ok n ∧ behindInteger (line :: lines) = lines ∧
      exchange prompt (line :: lines) = prompt.bytes := by
  simp [firstInteger, behindInteger, exchange, isRefused, holds]

theorem request_of_refused (holds : lineInteger? line = none) :
    firstInteger (line :: lines) = firstInteger lines ∧
      behindInteger (line :: lines) = behindInteger lines ∧
      exchange prompt (line :: lines) =
        prompt.bytes ++ (retryMessage.line.bytes ++ exchange prompt lines) := by
  simp [firstInteger, behindInteger, exchange, isRefused, holds]

/-- A request takes one integer away. -/
theorem filterMap_behindInteger :
    (behindInteger lines).filterMap lineInteger? = (lines.filterMap lineInteger?).tail := by
  induction lines with
  | nil => rfl
  | cons line lines ih =>
    cases holds : lineInteger? line with
    | none => rw [(request_of_refused lines [] holds).2.1, ih, List.filterMap_cons_none holds]
    | some n =>
      rw [(request_of_integer lines [] holds).2.1, List.filterMap_cons_some holds, List.tail_cons]

theorem filterMap_behindIntegers (k : Nat) :
    (behindIntegers k lines).filterMap lineInteger? = (lines.filterMap lineInteger?).drop k := by
  induction k generalizing lines with
  | zero => rfl
  | succ k ih => rw [behindIntegers, ih, filterMap_behindInteger, List.drop_tail]

/-- Request after request brings integer after integer. -/
theorem firstInteger_behindIntegers (k : Nat) : firstInteger (behindIntegers k lines) =
    ((lines.filterMap lineInteger?)[k]?).elim (.error .endOfInput) .ok := by
  rw [firstInteger, ← List.head?_filterMap, filterMap_behindIntegers, List.head?_drop]

end Lines

/-! ## One request -/

namespace LineReader

variable {reader : LineReader} {lines : List (List Char)} {prompt : Text}

/-- A text that is shown on a console that never fails arrives at once. -/
theorem display_at_once (reader : LineReader) (steady : reader.console.Steady) (text : Text) :
    ∃ shown, reader.display text = (none, ⟨shown, reader.input⟩) ∧
      Passes text.bytes reader.console shown ∧ shown.Drained := by
  rcases shows : reader.display text with ⟨_ | failure, shown⟩
  · obtain ⟨passes, drained⟩ := display_passes shows steady.frank
    refine ⟨shown.console, ?_, passes, drained⟩
    rw [← input_of_display shows]
  · exact absurd (display_trips shows steady.frank) steady.not_trips

/-- What a request comes to, if the given lines are still to come. -/
structure Requested (prompt : Text) (lines : List (List Char)) (console : Console)
    (result : Except Failure Int64 × LineReader) : Prop where
  answer : result.1 = firstInteger lines
  remains : result.2.input.Remains (behindInteger lines)
  passes : Passes (exchange prompt lines) console result.2.console
  drained : result.2.console.Drained

theorem readWithin_requested (prompt : Text) (lines : List (List Char)) :
    ∀ (fuel : Nat) (reader : LineReader), lines.length < fuel → reader.console.Steady →
      reader.input.Remains lines →
      Requested prompt lines reader.console (readWithin fuel prompt reader) := by
  induction lines with
  | nil =>
    rintro (_ | fuel) reader enough steady remains
    · cases enough
    obtain ⟨shown, shows, passes, drained⟩ := display_at_once reader steady prompt
    obtain ⟨after, read, later⟩ := remains.read_none
    simp only [readWithin, shows, read]
    exact ⟨rfl, later, passes, drained⟩
  | cons line lines ih =>
    rintro (_ | fuel) reader enough steady remains
    · cases enough
    obtain ⟨shown, shows, passes, drained⟩ := display_at_once reader steady prompt
    obtain ⟨after, read, later⟩ := remains.read
    cases holds : lineInteger? line with
    | some n =>
      obtain ⟨first, behind, shown⟩ := request_of_integer lines prompt holds
      simp only [readWithin, shows, read, holds]
      rw [← behind] at later
      rw [← shown] at passes
      exact ⟨first.symm, later, passes, drained⟩
    | none =>
      obtain ⟨first, behind, total⟩ := request_of_refused lines prompt holds
      have steady' := passes.steady steady
      obtain ⟨again, retries, passes', _⟩ :=
        display_at_once ⟨shown, after⟩ steady' retryMessage.line
      simp only [readWithin, shows, read, holds, retries]
      have rest := ih fuel ⟨again, after⟩ (Nat.lt_of_succ_lt_succ enough) (passes'.steady steady') later
      constructor
      · exact rest.answer.trans first.symm
      · rw [behind]
        exact rest.remains
      · rw [total]
        exact passes.trans (passes'.trans rest.passes)
      · exact rest.drained

theorem readInteger_requested (prompt : Text) (steady : reader.console.Steady)
    (remains : reader.input.Remains lines) :
    Requested prompt lines reader.console (reader.readInteger prompt) :=
  readWithin_requested prompt lines _ reader (Nat.lt_succ_of_le remains.length_le) steady remains

/-! ## Request after request -/

/-- The reader after some requests. -/
def after (reader : LineReader) (prompts : List Text) : LineReader :=
  prompts.foldl (fun reader prompt => (reader.readInteger prompt).2) reader

theorem after_requests (reader : LineReader) (prompts : List Text) (steady : reader.console.Steady)
    (remains : reader.input.Remains lines) :
    (reader.after prompts).console.Steady ∧
      (reader.after prompts).console.numbers = reader.console.numbers ∧
      (reader.after prompts).input.Remains (behindIntegers prompts.length lines) := by
  induction prompts generalizing reader lines with
  | nil => exact ⟨steady, rfl, remains⟩
  | cons prompt prompts ih =>
    have requested := readInteger_requested prompt steady remains
    obtain ⟨later, numbers, left⟩ := ih _ (requested.passes.steady steady) requested.remains
    exact ⟨later, numbers.trans requested.passes.numbers, left⟩

end LineReader

/-- A request is answered with the integer of the next line that holds one, takes the lines up to it,
and shows a prompt and a retry for each refused line. -/
theorem requests_bring_the_integers_of_the_lines (streams : List Stream)
    (ends : ∀ stream ∈ streams, stream.failing = none) (console : Console) (steady : console.Steady)
    (earlier : List Text) (prompt : Text) :
    let lines := (sourceLines streams).1
    let left := behindIntegers earlier.length lines
    let reader := LineReader.after ⟨console, .ofStreams streams⟩ earlier
    let result := reader.readInteger prompt
    result.1 = ((lines.filterMap lineInteger?)[earlier.length]?).elim (.error .endOfInput) .ok ∧
    reader.input.lines = (left, none) ∧ result.2.input.lines = ((left.dropWhile isRefused).tail, none) ∧
    ∀ number ∈ console.numbers, result.2.console.devices.received number =
      reader.console.devices.received number ++ reader.console.pending number ++
        (left.takeWhile isRefused).flatMap (fun _ => prompt.bytes ++ retryMessage.line.bytes) ++
        prompt.bytes := by
  intro lines left reader result
  obtain ⟨steady', numbers, remains⟩ := LineReader.after_requests ⟨console, .ofStreams streams⟩ earlier
    steady (Input.remains_ofStreams ends)
  have requested := LineReader.readInteger_requested prompt steady' remains
  refine ⟨?_, remains.lines_eq, requested.remains.lines_eq, fun number leads => ?_⟩
  · rw [← firstInteger_behindIntegers]
    exact requested.answer
  · have sent := requested.passes.sent number (numbers ▸ leads)
    rw [Console.sent, requested.drained.pending, List.append_nil] at sent
    rw [List.append_assoc]
    exact sent

/-- Five lines, two of which hold an integer. -/
def typedLines : Stream := { name := "input", later := [⟨"abc\n 42 \n\n-7\nx".toList, 0⟩] }

/-- A console with one device that never fails. -/
def Console.plain : Console := ⟨[.direct 0], ⟨#[⟨.memory, .willing, 0, 0, 0⟩], []⟩⟩

theorem Console.steady_plain : Console.plain.Steady := by
  refine ⟨⟨by decide, fun number leads => ?_⟩, fluent_single rfl⟩
  obtain rfl := List.mem_singleton.mp leads
  exact ⟨.willing, rfl, Manner.reliable_willing⟩

/-- The second request passes over an empty line and leaves the last line alone. -/
theorem second_request_brings_second_integer :
    let reader := LineReader.after ⟨.plain, .ofStreams [typedLines]⟩ ["? "]
    let result := reader.readInteger "n? "
    result.1 = .ok (-7) ∧ result.2.input.lines = (["x".toList], none) ∧
      result.2.console.devices.received 0 =
        reader.console.devices.received 0 ++ reader.console.pending 0 ++
          Text.bytes "n? Not an integer, try again\nn? " := by
  intro reader result
  have integers : ((sourceLines [typedLines]).1.filterMap lineInteger?)[1]? = some (-7 : Int64) := by
    decide +kernel
  have left : behindIntegers 1 (sourceLines [typedLines]).1 = [[], "-7".toList, "x".toList] := by
    decide +kernel
  obtain ⟨answer, _, rest, shown⟩ := requests_bring_the_integers_of_the_lines [typedLines]
    (List.forall_mem_singleton.mpr rfl) .plain Console.steady_plain ["? "] "n? "
  have received := shown 0 (by decide)
  change result.1 = (((sourceLines [typedLines]).1.filterMap lineInteger?)[1]?).elim _ _ at answer
  change result.2.input.lines =
    ((List.dropWhile isRefused (behindIntegers 1 (sourceLines [typedLines]).1)).tail, none) at rest
  change result.2.console.devices.received 0 = reader.console.devices.received 0 ++
    reader.console.pending 0 ++
      (List.takeWhile isRefused (behindIntegers 1 (sourceLines [typedLines]).1)).flatMap _ ++ _ at received
  rw [integers] at answer
  rw [left] at rest received
  refine ⟨answer, rest, received.trans ?_⟩
  rw [List.append_assoc]
  congr 1

end MiniPascal
