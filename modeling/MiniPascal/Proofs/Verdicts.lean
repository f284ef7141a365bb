import MiniPascal.Proofs.Compiler.Reporting
import MiniPascal.Proofs.Compiler.Termination
import MiniPascal.Proofs.Output
import MiniPascal.Report.Log

/-! # Diagnostics and verdicts agree

A log on a device that never fails has a line for every event of a journal. So the number of error lines in
the log of a compilation is the number of errors that the compilation counted, and this number decides the
verdict and the exit code.
-/

namespace MiniPascal

/-! ## Logs on devices that never fail -/

/-- Whether an event reports an error. -/
def Event.isError : Event → Bool
  | report diagnostic => diagnostic.level = .error
  | _ => false

/-- The line of a log entry. -/
def LogEntry.bytes : LogEntry → Bytes
  | bare line => line.line.bytes
  | leveled level message => withLineEnd ((levelMark level).bytes ++ message.bytes)

/-- The lines under the level of errors are those of errors. -/
theorem Event.isError_of_leveled {event : Event} {level message : Text}
    (entry : event.logEntry = .leveled level message) : event.isError = decide (level = errorLevel) := by
  cases event with
  | line | verdict => cases entry
  | token | enter | leave =>
    cases entry
    change false = _
    decide
  | report diagnostic =>
    cases entry
    change decide (diagnostic.level = .error) = _
    cases diagnostic.level <;> decide

theorem Event.isError_of_bare {event : Event} {line : Text} (entry : event.logEntry = .bare line) :
    event.isError = false := by
  cases event with
  | line | verdict => rfl
  | token | enter | leave | report => cases entry

namespace Logger

/-- A log that has a line for each of some events. -/
structure Holds (number : Nat) (before : Devices) (events : List Event) (state : Logger × Devices) :
    Prop where
  device : state.1.device = some number
  clear : state.1.pending = []
  reliable : ∃ manner, state.2.manner? number = some manner ∧ manner.Reliable
  errors : state.1.count errorLevel = events.countP Event.isError
  exit : state.1.exitCode = if events.countP Event.isError = 0 then 0 else 1
  received : state.2.received number =
    before.received number ++ events.flatMap fun event => event.logEntry.bytes

variable {number : Nat} {before devices : Devices} {events : List Event} {logger : Logger}

/-- What a device that never fails does with bytes. -/
theorem write_all (reliable : ∃ manner, devices.manner? number = some manner ∧ manner.Reliable)
    (bytes : Bytes) :
    (devices.write number bytes).1 = ⟨bytes.length, none⟩ ∧
      (devices.write number bytes).2.received number = devices.received number ++ bytes := by
  obtain ⟨manner, found, reliable⟩ := reliable
  have failure := Devices.write_of_reliable found reliable bytes
  obtain ⟨count, received⟩ := Devices.write_of_honest found reliable.honest failure
  refine ⟨?_, received⟩
  generalize (devices.write number bytes).1 = written at *
  obtain ⟨_, _⟩ := written
  simp_all only

namespace Holds

/-- Nothing of a line is left pending. -/
theorem print_eq (holds : Holds number before events (logger, devices)) (level message : Text) :
    logger.print devices level message =
      ({ logger.append level message with pending := [] },
        (devices.write number (LogEntry.leveled level message).bytes).2) := by
  have clear : logger.pending = [] := holds.clear
  have bytes : (logger.append level message).pending = (LogEntry.leveled level message).bytes := by
    simp [append, LogEntry.bytes, clear]
  have there : (logger.append level message).device = some number := holds.device
  obtain ⟨written, _⟩ := write_all holds.reliable (LogEntry.leveled level message).bytes
  unfold print deliver
  rw [there]
  dsimp only
  rw [bytes, written]
  simp [there]

theorem printEvent (holds : Holds number before events (logger, devices)) (event : Event) :
    Holds number before (events ++ [event]) (Logger.printEvent (logger, devices) event) := by
  obtain ⟨_, received⟩ := write_all holds.reliable event.logEntry.bytes
  have here : logger.device = some number := holds.device
  have reliable : ∃ manner,
      (devices.write number event.logEntry.bytes).2.manner? number = some manner ∧ manner.Reliable := by
    rw [Devices.manner?_write]
    exact holds.reliable
  have bytes : (devices.write number event.logEntry.bytes).2.received number =
      before.received number ++ (events ++ [event]).flatMap fun event => event.logEntry.bytes := by
    rw [received, show devices.received number = _ from holds.received]
    simp
  unfold Logger.printEvent
  dsimp only
  cases entry : event.logEntry with
  | leveled level message =>
    rw [entry] at reliable bytes
    dsimp only
    rw [holds.print_eq]
    have is := Event.isError_of_leveled entry
    have errors : logger.count errorLevel = _ := holds.errors
    have exit : logger.exitCode = _ := holds.exit
    refine ⟨here, rfl, reliable, ?_, ?_, bytes⟩
    · unfold Logger.count at errors ⊢
      simp only [append, List.count_cons, errors, List.countP_append, List.countP_cons, List.countP_nil, is]
      simp
    · simp only [append, List.countP_append, List.countP_cons, List.countP_nil, is, exit]
      by_cases error : level = errorLevel
      · by_cases none : events.countP Event.isError = 0 <;> simp [error, none]
      · simp [error]
  | bare line =>
    rw [entry] at reliable bytes
    dsimp only
    rw [here]
    have is := Event.isError_of_bare entry
    have none : (events ++ [event]).countP Event.isError = events.countP Event.isError := by
      simp [List.countP_append, is]
    exact ⟨here, holds.clear, reliable, none ▸ holds.errors, none ▸ holds.exit, bytes⟩

theorem foldl (more : List Event) {state : Logger × Devices} (holds : Holds number before events state) :
    Holds number before (events ++ more) (more.foldl Logger.printEvent state) := by
  induction more generalizing events state with
  | nil => simpa using holds
  | cons event more ih =>
    have all := ih (holds.printEvent event)
    rwa [List.append_assoc] at all

end Holds

/-- A journal is written to a device that never fails. -/
theorem holds_printJournal {manner : Manner} (found : devices.manner? number = some manner)
    (reliable : manner.Reliable) (journal : Journal) :
    Holds number devices journal.toList (printJournal { device := some number } devices journal) := by
  have start : Holds number devices [] ({ device := some number }, devices) :=
    ⟨rfl, rfl, ⟨manner, found, reliable⟩, rfl, rfl, by simp⟩
  exact start.foldl journal.toList

end Logger

/-! ## Compilations -/

theorem Journal.countP_isError (journal : Journal) :
    journal.toList.countP Event.isError = journal.reports.countP (·.level = .error) := by
  unfold reports
  induction journal.toList with
  | nil => rfl
  | cons event events ih =>
    cases event with
    | report diagnostic =>
      change _ = List.countP _ (diagnostic :: events.filterMap Event.report?)
      rw [List.countP_cons, List.countP_cons, ih]
      rfl
    | line | token | enter | leave | verdict =>
      rw [List.countP_cons_of_neg Bool.false_ne_true]
      exact ih

/-- The session at the end of a compilation. -/
def lastSession (options : CompileOptions) (input : Input) : Session :=
  match Rule.wholeProgram (Session.start options input) with
  | .ok _ s | .error _ s => s

section Compilations

variable (options : CompileOptions) (input : Input)

/-- What holds of either outcome holds of the last session. -/
theorem lastSession_of_leads {P : Session → Prop}
    (leads : Leads Rule.wholeProgram (Session.start options input) (fun _ => P) fun _ => P) :
    P (lastSession options input) := by
  unfold lastSession
  cases ran : Rule.wholeProgram (Session.start options input) with
  | ok _ s => exact leads.ok ran
  | error _ s => exact leads.error ran

theorem wholeProgram_composed : Rule.Composed Rule.wholeProgram := .move .program

theorem lastSession_reports : (Session.start options input).Reports (lastSession options input) := by
  have accounts := wholeProgram_composed.accounts (Session.start options input)
  exact lastSession_of_leads options input (accounts.mono (fun _ _ => id) fun _ _ => And.left)

/-- The grammar rules counted an error exactly if one of them gave up. -/
theorem syntaxErrors_iff_givesUp : (lastSession options input).syntaxErrors ≠ 0 ↔
    Rule.GivesUpIn Rule.wholeProgram (Session.start options input) := by
  rw [← Nat.pos_iff_ne_zero]
  constructor
  · exact lastSession_of_leads options input
      (wholeProgram_composed.givesUpIn (Session.start options input))
  · rintro ⟨_, y, t, u, runs, gaveUp⟩
    exact lastSession_of_leads options input (runs.countsError gaveUp)

/-- A compilation is finished where the rules end. -/
theorem compile_eq_finish : compile options input = (lastSession options input).finish := by
  have leads := Rule.program_does _ (firstSession_orderly options input).valid
  have fuel := Rule.program_spends (firstSession_within options input)
  rw [compile_eq]
  unfold lastSession
  cases ran : Rule.wholeProgram (Session.start options input) with
  | ok _ t => rfl
  | error abort t =>
    have ran' : Rule.program (firstSession options input) = .error abort t := ran
    obtain ⟨_, excused⟩ := Leads.error leads ran'
    obtain ⟨fueled, _⟩ := Leads.error fuel ran'
    cases abort with
    | gaveUp => rfl
    | crashed error => exact excused.elim
    | outOfFuel => exact absurd rfl fueled

/-- The diagnostics show every error that was counted. -/
theorem countP_journal (watched : options.watch.diagnostics = true) :
    (lastSession options input).journal.toList.countP Event.isError = (lastSession options input).errors := by
  obtain ⟨_, ⟨issues, counted, reported⟩, _⟩ := lastSession_reports options input
  have none : (Session.start options input).errors = 0 := rfl
  have silent : (Session.start options input).journal.reports = [] := rfl
  rw [Journal.countP_isError, reported watched, silent, List.nil_append, counted, none, Nat.zero_add]

/-- The verdict comes last. -/
theorem journal_eq (watched : options.watch.verdict = true) :
    (compile options input).journal.toList = (lastSession options input).journal.toList ++
      [.verdict ((lastSession options input).errors = 0)] := by
  have watch : (lastSession options input).journal.watch = options.watch :=
    (lastSession_reports options input).watch
  have shown : (lastSession options input).journal.watch.shows
      (.verdict ((lastSession options input).errors = 0)) = true := by
    rw [watch]
    exact watched
  rw [compile_eq_finish]
  exact Journal.toList_note_of_shows shown

end Compilations

/-- The verdict, the exit code and the last line follow from the number of error lines, and the grammar
rules counted an error exactly if one of them gave up. -/
theorem diagnostics_agree_with_verdict {options : CompileOptions}
    (watched : options.watch.diagnostics = true ∧ options.watch.verdict = true) {devices : Devices}
    {number : Nat} {manner : Manner} (found : devices.manner? number = some manner)
    (reliable : manner.Reliable) (input : Input) :
    let compilation := compile options input
    let printed := Logger.printJournal { device := some number } devices compilation.journal
    let errors := printed.1.count errorLevel
    compilation.verdict = (if errors = 0 then .accepted else .rejected errors) ∧
    printed.1.exitCode = (if errors = 0 then 0 else 1) ∧
    (∃ events, compilation.journal.toList = events ++ [.verdict (errors = 0)] ∧
      events.countP Event.isError = errors ∧
      printed.2.received number = devices.received number ++
        (events.flatMap fun event => event.logEntry.bytes) ++ (verdictLine (errors = 0)).line.bytes) ∧
    ((lastSession options input).syntaxErrors ≠ 0 ↔
      Rule.GivesUpIn Rule.wholeProgram (Session.start options input)) ∧
    (Rule.GivesUpIn Rule.wholeProgram (Session.start options input) → errors ≠ 0) := by
  intro compilation printed errors
  have events := journal_eq options input watched.2
  have counted := countP_journal options input watched.1
  have gaveUp := syntaxErrors_iff_givesUp options input
  have holds := Logger.holds_printJournal found reliable compilation.journal
  have same : errors = (lastSession options input).errors := by
    have logged : errors = compilation.journal.toList.countP Event.isError := holds.errors
    rw [logged, events, List.countP_append, counted]
    rfl
  have all : compilation.journal.toList.countP Event.isError = errors := holds.errors.symm
  have verdict : compilation.verdict = (lastSession options input).finish.verdict :=
    congrArg Compilation.verdict (compile_eq_finish options input)
  refine ⟨?_, ?_, ⟨_, ?_, counted.trans same.symm, ?_⟩, gaveUp, ?_⟩
  · rw [verdict, same]
    rfl
  · exact all ▸ holds.exit
  · rw [same, events]
  · rw [holds.received, events, same]
    simp [Event.logEntry, LogEntry.bytes]
  · intro givesUp
    have counts := gaveUp.2 givesUp
    rw [same]
    unfold Session.errors
    omega

/-- After a missing expression the compilation skips a text that is not closed and goes on to the end:
two errors, one of them of a grammar rule. -/
theorem resumed_program_is_rejected :
    let options : CompileOptions := { watch := { diagnostics := true, verdict := true } }
    let input := Input.ofString "unit p; begin x := ; 'a\n; writeln(1) end."
    let devices : Devices := { all := #[⟨.memory, .willing, 0, 0, 0⟩] }
    let compilation := compile options input
    let printed := Logger.printJournal { device := some 0 } devices compilation.journal
    options.watch.diagnostics = true ∧ options.watch.verdict = true ∧
    devices.manner? 0 = some .willing ∧ Manner.willing.Reliable ∧
    (lastSession options input).quads.quads.back? = some ⟨.stop, 0, 0, 0⟩ ∧
    Rule.GivesUpIn Rule.wholeProgram (Session.start options input) ∧
    printed.1.count errorLevel = 2 ∧ compilation.verdict = .rejected 2 ∧ printed.1.exitCode = 1 ∧
    ∃ events : List Event, events.countP Event.isError = 2 ∧ printed.2.received 0 =
      (events.flatMap fun event => event.logEntry.bytes) ++ (verdictLine false).line.bytes := by
  intro options input devices compilation printed
  have watched : options.watch.diagnostics = true ∧ options.watch.verdict = true := ⟨rfl, rfl⟩
  obtain ⟨two, stops, counted⟩ : printed.1.count errorLevel = 2 ∧
      (lastSession options input).quads.quads.back? = some ⟨.stop, 0, 0, 0⟩ ∧
      (lastSession options input).syntaxErrors ≠ 0 := by
    decide +kernel
  have found : devices.manner? 0 = some .willing := rfl
  have empty : devices.received 0 = [] := rfl
  clear_value input devices
  obtain ⟨verdict, exit, ⟨events, _, errors, received⟩, gaveUp, _⟩ :=
    diagnostics_agree_with_verdict watched found Manner.reliable_willing input
  have two' : (Logger.printJournal { device := some 0 } devices (compile options input).journal).1.count
      errorLevel = 2 := two
  rw [two'] at verdict exit errors received
  rw [empty, List.nil_append] at received
  exact ⟨rfl, rfl, found, Manner.reliable_willing, stops, gaveUp.mp counted, two, verdict, exit, events,
    errors, received⟩

end MiniPascal
