import MiniPascal.Proofs.Verdicts

/-! # What becomes of the bytes of a log

The lines of a log go to a device that may accept any part of what it is offered, with or without saying
why. What it has accepted and what is still pending are together the complete lines of all calls in their
order, each followed by a line about its failure if it could not be written. Only one kind of line gets
lost: an empty one without a level while something is pending, since the line end that is pending is then
taken for its own.
-/

namespace MiniPascal

theorem Text.bytes_ne_nil {text : Text} (nonempty : text ≠ []) : text.bytes ≠ [] := by
  obtain ⟨glyph, rest, rfl⟩ := List.exists_cons_of_ne_nil nonempty
  cases glyph with
  | char c => simp [Text.bytes, Glyph.bytes]
  | stray byte => simp [Text.bytes, Glyph.bytes]

/-- Only the last line decides whether a line end is missing. -/
theorem withLineEnd_append (bytes : Bytes) {line : Bytes} (nonempty : line ≠ []) :
    withLineEnd (bytes ++ line) = bytes ++ withLineEnd line := by
  unfold withLineEnd
  rw [List.getLast?_append_of_ne_nil _ nonempty]
  split
  · rfl
  · rw [List.append_assoc]

namespace Logger

/-- A log on a device that exists. -/
structure On (number : Nat) (state : Logger × Devices) : Prop where
  device : state.1.device = some number
  known : ∃ manner, state.2.manner? number = some manner

/-- The bytes of a log: what the device has accepted, and what is pending. -/
def bytes (number : Nat) (state : Logger × Devices) : Bytes :=
  state.2.received number ++ state.1.pending

/-- The log after some calls, each with a level and a message. -/
def printAll (state : Logger × Devices) (calls : List (Text × Text)) : Logger × Devices :=
  calls.foldl (fun state call => state.1.print state.2 call.1 call.2) state

/-- Why the line of a call cannot be written, if it cannot. -/
def setback (state : Logger × Devices) (level message : Text) : Option Failure :=
  ((state.1.append level message).deliver state.2).1

/-- The complete line of a call. -/
def fullLine (level message : Text) : Bytes := (LogEntry.leveled level message).bytes

/-- The line about a failure. -/
def complaint (failure : Option Failure) : Bytes :=
  failure.elim [] fun failure => fullLine errorLevel failure.message

/-- An empty line comes while a line end is pending. -/
def Swallows (logger : Logger) (level message : Text) : Prop :=
  logger.pending.getLast? = some '\n'.toUInt8 ∧ level = [] ∧ message = []

instance (logger : Logger) (level message : Text) : Decidable (logger.Swallows level message) :=
  inferInstanceAs (Decidable (_ ∧ _))

/-- What is left of the line of a call. -/
def keptLine (logger : Logger) (level message : Text) : Bytes :=
  if logger.Swallows level message then [] else fullLine level message

/-- The lines of some calls, each followed by a complaint if it cannot be written. What counts as the
line of a call is given. -/
def account (line : Logger → Text → Text → Bytes) : Logger × Devices → List (Text × Text) → Bytes
  | _, [] => []
  | state, (level, message) :: calls =>
    line state.1 level message ++ complaint (setback state level message) ++
      account line (state.1.print state.2 level message) calls

/-- The complete lines of some calls, with the complaints. -/
def fullAccount : Logger × Devices → List (Text × Text) → Bytes := account fun _ => fullLine

/-- What is left of the lines of some calls, with the complaints. -/
def keptAccount : Logger × Devices → List (Text × Text) → Bytes := account keptLine

variable {number : Nat} {logger : Logger} {devices : Devices} {level message : Text}

/-! ## One line -/

theorem levelMark_ne_nil (named : level ≠ []) : levelMark level ≠ [] := by
  simp [levelMark, Text.join, named, Text.ofString, Text.ofChars]

/-- A line gets behind what is pending as a whole, or not at all. -/
theorem pending_append (logger : Logger) (level message : Text) :
    (logger.append level message).pending = logger.pending ++ logger.keptLine level message := by
  change withLineEnd (logger.pending ++ (levelMark level).bytes ++ message.bytes) = _
  rw [List.append_assoc]
  by_cases empty : level = [] ∧ message = []
  · obtain ⟨rfl, rfl⟩ := empty
    change withLineEnd (logger.pending ++ []) = _
    rw [List.append_nil, withLineEnd, keptLine]
    by_cases ended : logger.pending.getLast? = some '\n'.toUInt8
    · rw [if_pos ended, if_pos ⟨ended, rfl, rfl⟩, List.append_nil]
    · rw [if_neg ended, if_neg fun swallows => ended swallows.1]
      rfl
  · have nonempty : (levelMark level).bytes ++ message.bytes ≠ [] := by
      rw [ne_eq, List.append_eq_nil_iff, not_and_or]
      rcases not_and_or.mp empty with named | filled
      · exact .inl (Text.bytes_ne_nil (levelMark_ne_nil named))
      · exact .inr (Text.bytes_ne_nil filled)
    rw [withLineEnd_append _ nonempty, keptLine, if_neg fun swallows => empty swallows.2]
    rfl

theorem bytes_append (logger : Logger) (devices : Devices) (level message : Text) :
    bytes number (logger.append level message, devices) =
      bytes number (logger, devices) ++ logger.keptLine level message := by
  simp only [bytes, pending_append, List.append_assoc]

/-- However much the device accepts, the rest stays pending. -/
theorem On.deliver (on : On number (logger, devices)) :
    On number (logger.deliver devices).2 ∧
      bytes number (logger.deliver devices).2 = bytes number (logger, devices) := by
  obtain ⟨manner, found⟩ := on.known
  have device : logger.device = some number := on.device
  have delivers : (logger.deliver devices).2 =
      ({ logger with pending := logger.pending.drop (devices.write number logger.pending).1.count },
        (devices.write number logger.pending).2) := by
    simp [Logger.deliver, device]
  rw [delivers]
  constructor
  · exact ⟨device, manner, (Devices.manner?_write _ _ _ _).trans found⟩
  · simp only [bytes, Devices.received_write found, List.append_assoc, List.take_append_drop]

theorem On.append (on : On number (logger, devices)) (level message : Text) :
    On number (logger.append level message, devices) :=
  ⟨on.device, on.known⟩

/-- The complaint about a failure is never empty, so it is kept. -/
theorem keptLine_error (logger : Logger) (message : Text) :
    logger.keptLine errorLevel message = fullLine errorLevel message := by
  apply if_neg
  rintro ⟨-, absurd, -⟩
  cases absurd

/-- A call adds what is left of its line, and a complaint if that cannot be written. -/
theorem On.print (on : On number (logger, devices)) (level message : Text) :
    On number (logger.print devices level message) ∧
      bytes number (logger.print devices level message) = bytes number (logger, devices) ++
        logger.keptLine level message ++ complaint (setback (logger, devices) level message) := by
  have first := (on.append level message).deliver
  rw [bytes_append] at first
  rcases delivers : (logger.append level message).deliver devices with ⟨failure, tried, written⟩
  rw [delivers] at first
  have fails : setback (logger, devices) level message = failure := by rw [setback, delivers]
  rw [fails]
  cases failure with
  | none =>
    simp only [Logger.print, delivers, complaint, Option.elim_none, List.append_nil]
    exact first
  | some failure =>
    obtain ⟨on', same⟩ := first
    obtain ⟨last, same'⟩ := (on'.append errorLevel failure.message).deliver
    rw [bytes_append, same, keptLine_error] at same'
    simp only [Logger.print, delivers]
    exact ⟨⟨last.device, last.known⟩, same'⟩

/-! ## Any number of lines -/

theorem On.printAll {state : Logger × Devices} (on : On number state) (calls : List (Text × Text)) :
    bytes number (printAll state calls) = bytes number state ++ keptAccount state calls := by
  induction calls generalizing state with
  | nil => exact (List.append_nil _).symm
  | cons call calls ih =>
    obtain ⟨level, message⟩ := call
    obtain ⟨next, same⟩ := on.print level message
    change bytes number (Logger.printAll (state.1.print state.2 level message) calls) = _
    rw [ih next, same]
    simp only [keptAccount, account, List.append_assoc]

/-- If no line is swallowed, all lines are complete. -/
theorem keptAccount_eq (calls : List (Text × Text)) (state : Logger × Devices)
    (whole : ∀ k level message, calls[k]? = some (level, message) →
      ¬ (printAll state (calls.take k)).1.Swallows level message) :
    keptAccount state calls = fullAccount state calls := by
  induction calls generalizing state with
  | nil => rfl
  | cons call calls ih =>
    obtain ⟨level, message⟩ := call
    have here : ¬ state.1.Swallows level message := whole 0 level message rfl
    have later := ih (state.1.print state.2 level message) fun k => whole (k + 1)
    unfold keptAccount fullAccount at later ⊢
    rw [account, account, later, keptLine, if_neg here]

end Logger

/-- What the device has accepted and what is pending are the lines of all calls in order, but for empty
lines that come while a line end is pending. -/
theorem log_keeps_all_but_swallowed_lines (number : Nat) (state : Logger × Devices)
    (on : Logger.On number state) (calls : List (Text × Text)) :
    let after := Logger.printAll state calls
    after.2.received number ++ after.1.pending =
      state.2.received number ++ state.1.pending ++ Logger.keptAccount state calls ∧
    ((∀ k level message, calls[k]? = some (level, message) →
        ¬ (Logger.printAll state (calls.take k)).1.Swallows level message) →
      after.2.received number ++ after.1.pending =
        state.2.received number ++ state.1.pending ++ Logger.fullAccount state calls) := by
  intro after
  have kept : after.2.received number ++ after.1.pending = _ := on.printAll calls
  refine ⟨kept, fun whole => ?_⟩
  rw [← Logger.keptAccount_eq calls state whole]
  exact kept

/-- A device that accepts four bytes of what it is offered first, then nothing, and then everything. -/
def Manner.faltering : Manner where
  write number _ offered :=
    if number = 0 then .took 4 none else if number = 1 then .refused .cancelled else .took offered none
  flush _ := none

/-- A log on one device. -/
def Logger.single (manner : Manner) : Logger × Devices :=
  ({ device := some 0 }, ⟨#[⟨.plain, manner, 0, 0, 0⟩], []⟩)

/-- A line that is cut, and the complaint about it, arrive before the next line. -/
theorem cut_line_is_kept :
    Logger.On 0 (Logger.single .faltering) ∧
      let after := Logger.printAll (Logger.single .faltering) [("W", "ab"), ([], "c")]
      after.2.received 0 ++ after.1.pending = Text.bytes "W: ab\nERROR: short write\nc\n" := by
  have on : Logger.On 0 (Logger.single .faltering) := ⟨rfl, .faltering, rfl⟩
  have lines : Logger.fullAccount (Logger.single .faltering) [("W", "ab"), ([], "c")] =
      Text.bytes "W: ab\nERROR: short write\nc\n" := by decide +kernel
  have filled : ∀ call ∈ [(("W" : Text), ("ab" : Text)), ([], "c")], call.2 ≠ [] := by decide +kernel
  obtain ⟨_, complete⟩ :=
    log_keeps_all_but_swallowed_lines 0 (Logger.single .faltering) on [("W", "ab"), ([], "c")]
  have all := complete fun k level message call swallows =>
    filled _ (List.mem_of_getElem? call) swallows.2.2
  rw [lines] at all
  exact ⟨on, all⟩

/-- After two writes that fail an empty line adds nothing, not even its end. -/
theorem empty_line_is_swallowed :
    let state := Logger.single (.limited none false [0, 1] .cancelled none)
    let calls : List (Text × Text) := [([], "a"), ([], [])]
    let after := Logger.printAll state calls
    Logger.On 0 state ∧
      after.2.received 0 ++ after.1.pending = Text.bytes "a\nERROR: context canceled\n" ∧
      Logger.fullAccount state calls = Text.bytes "a\nERROR: context canceled\n\n" :=
  ⟨⟨rfl, _, rfl⟩, by decide +kernel, by decide +kernel⟩

end MiniPascal
