import MiniPascal.Proofs.Failures
import MiniPascal.Proofs.Semantics
import MiniPascal.Proofs.Machine.Runs

/-! # What a run writes

The transcript of a run is what its quads write, one after the other: the lines that are printed, and
the prompts and retries of every integer that is typed. It is read off the states of the run and not
off the console. As long as no operation of the console fails, honest devices are sent exactly the
transcript.
-/

namespace MiniPascal

open Console

/-! ## Asking for an integer -/

theorem Input.dialogueWithin_retry {input rest : Input} {line : List Char} {prompt : Text} {fuel : Nat}
    (reads : input.readLine = (.ok line, rest)) (holds : lineInteger? line = none) :
    input.dialogueWithin prompt (fuel + 1) =
      ⟨prompt.bytes ++ (retryMessage.line.bytes ++ (rest.dialogueWithin prompt fuel).shown),
        (rest.dialogueWithin prompt fuel).answer, (rest.dialogueWithin prompt fuel).rest⟩ := by
  simp only [dialogueWithin, reads, holds]

namespace LineReader

variable {reader shown : LineReader} {text : Text}

/-- A text that is shown has also arrived. -/
theorem display_passes (shows : reader.display text = (none, shown)) (frank : reader.console.Frank) :
    Passes text.bytes reader.console shown.console ∧ shown.console.Drained := by
  cases accepts : (reader.console.write text.bytes).1.failure with
  | some failure => simp [display, accepts] at shows
  | none =>
    simp only [display, accepts, Prod.mk.injEq] at shows
    obtain ⟨silent, rfl⟩ := shows
    have written := write_passes frank.served accepts
    obtain ⟨flushed, drained⟩ := flush_passes (written.frank frank).served silent
    have passes := written.trans flushed
    rw [List.append_nil] at passes
    exact ⟨passes, drained⟩

theorem display_trips {failure : Failure} (shows : reader.display text = (some failure, shown))
    (frank : reader.console.Frank) : reader.console.Trips failure := by
  cases accepts : (reader.console.write text.bytes).1.failure with
  | some other =>
    simp only [display, accepts, Prod.mk.injEq, Option.some.injEq] at shows
    obtain ⟨rfl, _⟩ := shows
    exact .write (.refl frank.fluent) accepts
  | none =>
    simp only [display, accepts, Prod.mk.injEq] at shows
    exact .flush (write_passes frank.served accepts) shows.1

/-- Prompting has gone through all of a dialogue. -/
structure Completes (dialogue : Dialogue) (console : Console) (result : Except Failure Int64 × LineReader) :
    Prop where
  answer : result.1 = dialogue.answer
  rest : result.2.input = dialogue.rest
  passes : Passes dialogue.shown console result.2.console
  drained : result.2.console.Drained

/-- Prompting fails as the console does, or goes through the dialogue. -/
theorem Asked.completes {prompt : Text} {fuel : Nat} {reader : LineReader}
    {result : Except Failure Int64 × LineReader} (asked : Asked prompt fuel reader result)
    (frank : reader.console.Frank) (drained : reader.console.Drained) :
    (∃ failure, result.1 = .error failure ∧ reader.console.Trips failure) ∨
      Completes (reader.input.dialogueWithin prompt fuel) reader.console result := by
  induction asked with
  | spent => exact .inr ⟨rfl, rfl, .refl frank.fluent, drained⟩
  | unshown shows => exact .inl ⟨_, rfl, display_trips shows frank⟩
  | unread shows reads =>
    obtain ⟨passes, empty⟩ := display_passes shows frank
    simp only [Input.dialogueWithin, reads]
    exact .inr ⟨rfl, rfl, passes, empty⟩
  | answered shows reads holds =>
    obtain ⟨passes, empty⟩ := display_passes shows frank
    simp only [Input.dialogueWithin, reads, holds]
    exact .inr ⟨rfl, rfl, passes, empty⟩
  | unretried shows _ _ retries =>
    obtain ⟨passes, _⟩ := display_passes shows frank
    exact .inl ⟨_, rfl, (display_trips retries (passes.frank frank)).of_passes passes⟩
  | retried shows reads holds retries _ ih =>
    obtain ⟨passes, _⟩ := display_passes shows frank
    have frank' := passes.frank frank
    obtain ⟨passes', empty⟩ := display_passes retries frank'
    have both := passes.trans passes'
    rw [Input.dialogueWithin_retry reads holds]
    obtain ⟨failure, fails, trips⟩ | ⟨answer, rest, later, empty⟩ := ih (passes'.frank frank') empty
    · exact .inl ⟨failure, fails, trips.of_passes both⟩
    · rw [input_of_display retries] at answer rest later
      exact .inr ⟨answer, rest, passes.trans (passes'.trans later), empty⟩

/-- Prompting on a steady console is the dialogue. -/
theorem readInteger_completes (reader : LineReader) (prompt : Text) (steady : reader.console.Steady)
    (drained : reader.console.Drained) :
    Completes (reader.input.dialogue prompt) reader.console (reader.readInteger prompt) := by
  have asked := readWithin_asked prompt (reader.input.unread + 1) reader
  obtain ⟨_, _, trips⟩ | completes := asked.completes steady.frank drained
  · exact absurd trips steady.not_trips
  · exact completes

end LineReader

/-! ## What a quad writes -/

namespace Machine

/-- What a machine writes when it asks for an integer: nothing if the integers come from a script. -/
def dialogue (m : Machine) (prompt : Text) : Bytes :=
  match m.script.bind fun i => m.scripts[i]? with
  | some _ => []
  | none => (m.input.dialogue prompt).shown

/-- What the next quad writes. -/
def utterance (m : Machine) : Bytes :=
  if m.OverLimit then []
  else match m.intent with
    | .ok (.print value) => value.toText.line.bytes
    | .ok (.read i) =>
      match m.program.symbols.name i with
      | .ok name => m.dialogue (Exec.prompt name)
      | .error _ => []
    | _ => []

variable {m next last after : Machine}

theorem asked_passes (frank : m.console.Frank) (drained : m.console.Drained) (prompt : Text) :
    (∃ failure, (m.asked prompt).1 = .error failure ∧ m.console.Trips failure) ∨
      Passes (m.dialogue prompt) m.console (m.asked prompt).2.console ∧
        (m.asked prompt).2.console.Drained := by
  unfold dialogue
  cases scripted : m.script.bind fun i => m.scripts[i]? with
  | some script =>
    obtain ⟨i, used, found⟩ := Option.bind_eq_some_iff.mp scripted
    rw [asked_of_script used found]
    exact .inr ⟨.refl frank.fluent, drained⟩
  | none =>
    rw [asked_of_typed scripted]
    have asked := LineReader.readWithin_asked prompt (m.input.unread + 1) ⟨m.console, m.input⟩
    obtain fails | completes := asked.completes frank drained
    · exact .inl fails
    · exact .inr ⟨completes.passes, completes.drained⟩

theorem dialogue_ready (m : Machine) (prompt : Text) :
    m.ready.flushed.dialogue prompt = m.dialogue prompt := by
  unfold ready traced
  split <;> rfl

theorem traced_passes {bytes : Bytes} {console : Console} (passes : Passes bytes console m.console)
    (label message : Text) : Passes bytes console (m.traced label message).console := by
  unfold traced
  split
  · exact passes.trace _
  · exact passes

theorem ready_passes (fluent : m.console.Fluent) : Passes [] m.console m.ready.console :=
  traced_passes (m := m.fetched) (.refl fluent) _ _

/-- The answer to a prompt, after a flush that did not fail. -/
theorem answered_passes (frank : m.console.Frank) (clear : m.ready.console.flush.1 = none) (name : Text) :
    (∃ failure, (m.answered name).1 = .error failure ∧ m.console.Trips failure) ∨
      Passes (m.dialogue (Exec.prompt name)) m.console (m.answered name).2.console ∧
        (m.answered name).2.console.Drained := by
  have ready := ready_passes frank.fluent
  have frank' := ready.frank frank
  obtain ⟨flushed, drained⟩ := flush_passes frank'.served clear
  have both := ready.trans flushed
  obtain ⟨failure, fails, trips⟩ | ⟨passes, empty⟩ :=
    asked_passes (m := m.ready.flushed) (flushed.frank frank') drained (Exec.prompt name)
  · exact .inl ⟨failure, fails, trips.of_passes both⟩
  · rw [dialogue_ready] at passes
    exact .inr ⟨both.trans passes, empty⟩

theorem Steps.passes (steps : m.Steps after) (frank : m.console.Frank) :
    Passes m.utterance m.console after.console := by
  have ready := ready_passes frank.fluent
  cases steps with
  | write within does | goto within does | next within does =>
    simp only [utterance, if_neg within, does]
    exact ready
  | print within does shown =>
    simp only [utterance, if_neg within, does]
    exact ready.trans (write_passes (ready.frank frank).served shown)
  | @read _ name _ _ within does clear named answers stores =>
    simp only [utterance, if_neg within, does, named]
    obtain ⟨failure, fails, _⟩ | ⟨passes, _⟩ := answered_passes frank clear name
    · rw [answers] at fails
      cases fails
    · exact passes

/-! ## What a run writes -/

/-- The machine after the next quad, if the run goes on. -/
def following (interruption : Option Failure) (m : Machine) : Option Machine :=
  match Exec.step m with
  | .ok _ after => if interruption.isNone then some after else none
  | .error _ _ => none

/-- What a run writes, from the next quad on, for at most `fuel` quads after `done` others. -/
def transcript (context : Context) : (done fuel : Nat) → Machine → Bytes
  | _, 0, _ => []
  | done, fuel + 1, m =>
    if m.pc < m.program.quads.size then
      m.utterance ++ (m.following (context done)).elim [] (transcript context (done + 1) fuel)
    else []

/-- What a run writes. -/
def output (context : Context) (fuel : Nat) (m : Machine) : Bytes :=
  m.rewind.transcript context 0 fuel

variable {context : Context} {done n fuel : Nat} {halt : Option Halt}

theorem transcript_of_inside (inside : m.Inside) : m.transcript context done (fuel + 1) =
    m.utterance ++ (m.following (context done)).elim [] (transcript context (done + 1) fuel) :=
  if_pos inside

theorem Steps.following (steps : m.Steps next) : m.following none = some next := by
  simp [Machine.following, steps.eq]

theorem transcript_of_steps (steps : m.Steps next) (quiet : context done = none) :
    m.transcript context done (fuel + 1) = m.utterance ++ next.transcript context (done + 1) fuel := by
  rw [transcript_of_inside steps.started, quiet, steps.following]
  rfl

theorem Ends.following {interruption : Option Failure} (ends : m.Ends interruption halt after)
    (inside : m.Inside) : m.following interruption = none := by
  cases ends with
  | halt _ halts => simp [Machine.following, halts.eq]
  | interrupted _ steps called => simp [Machine.following, steps.eq, called]
  | past outside | unflushed outside => exact absurd inside outside

/-- What a machine writes at the last state of its run: nothing past the last quad. -/
def lastWords (m : Machine) : Bytes := if m.Inside then m.utterance else []

theorem transcript_of_ends (ends : m.Ends (context done) halt after) :
    m.transcript context done (fuel + 1) = m.lastWords := by
  unfold lastWords
  split
  · rename_i inside
    rw [transcript_of_inside inside, ends.following inside]
    exact List.append_nil _
  · exact if_neg ‹_›

/-- A machine comes to another state and writes `bytes` on the way. -/
inductive Utters : Bytes → Machine → Machine → Prop
  | refl (m : Machine) : Utters [] m m
  | head {bytes : Bytes} {m next last : Machine} (steps : m.Steps next)
      (later : Utters bytes next last) : Utters (m.utterance ++ bytes) m last

theorem Utters.passes {bytes : Bytes} (utters : Utters bytes m last) (frank : m.console.Frank) :
    Passes bytes m.console last.console := by
  induction utters with
  | refl => exact .refl frank.fluent
  | head steps _ ih =>
    have first := steps.passes frank
    exact first.trans (ih (first.frank frank))

/-- A run writes what it writes on the way to a state, and then what it writes from there on. -/
theorem Goes.utters (goes : Goes context done n m last) : ∃ bytes, Utters bytes m last ∧
    ∀ fuel, m.transcript context done (fuel + n) = bytes ++ last.transcript context (done + n) fuel := by
  induction n generalizing done m with
  | zero =>
    obtain ⟨⟨⟩, _⟩ := goes
    exact ⟨[], .refl _, fun fuel => rfl⟩
  | succ n ih =>
    obtain ⟨next, steps, quiet, later⟩ := goes.of_succ
    obtain ⟨bytes, utters, writes⟩ := ih later
    refine ⟨_, .head steps utters, fun fuel => ?_⟩
    rw [← Nat.add_assoc, transcript_of_steps steps quiet, writes, List.append_assoc, Nat.add_right_comm]
    rfl

/-- The transcript of a run that ends is what it writes up to its last state and there. -/
theorem EndsWithin.utters (ends : EndsWithin context done fuel m halt after) :
    ∃ bytes n last, Utters bytes m last ∧ last.Ends (context n) halt after ∧
      m.transcript context done fuel = bytes ++ last.lastWords := by
  obtain @⟨n, last, _, _, few, goes, ends⟩ := ends
  obtain ⟨bytes, utters, writes⟩ := goes.utters
  obtain ⟨spare, rfl⟩ : ∃ spare, fuel = spare + 1 + n := ⟨fuel - n - 1, by omega⟩
  refine ⟨bytes, done + n, last, utters, ends, ?_⟩
  rw [writes, transcript_of_ends ends]

end Machine

end MiniPascal
