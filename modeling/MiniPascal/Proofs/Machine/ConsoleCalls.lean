import MiniPascal.Proofs.Distribution
import MiniPascal.Proofs.Failures
import MiniPascal.Proofs.Machine.Runs

/-! # A machine works on its console by calls alone

Printing, prompting, tracing and ending a run change the console in no other way than by calls of it. So
whatever holds of every call of a console holds of all that a machine writes and flushes, over any number of
runs.
-/

namespace MiniPascal

namespace Console

/-- A console comes to be like another by calls. -/
def ComesTo (console after : Console) : Prop := ∃ calls, after = console.calledAll calls

variable {console between after : Console}

theorem ComesTo.refl (console : Console) : console.ComesTo console := ⟨[], rfl⟩

theorem ComesTo.trans (first : console.ComesTo between) (second : between.ComesTo after) :
    console.ComesTo after := by
  obtain ⟨calls, rfl⟩ := first
  obtain ⟨later, rfl⟩ := second
  exact ⟨calls ++ later, (console.calledAll_append calls later).symm⟩

theorem comesTo_called (console : Console) (call : ConsoleCall) : console.ComesTo (console.called call) :=
  ⟨[call], rfl⟩

end Console

namespace LineReader

variable {reader after : LineReader} {failure : Option Failure} {text prompt : Text}

theorem display_comesTo (shows : reader.display text = (failure, after)) :
    reader.console.ComesTo after.console := by
  have written := reader.console.comesTo_called (.write text.bytes)
  unfold display at shows
  dsimp only at shows
  split at shows
  · cases shows
    exact written
  · cases shows
    exact written.trans (Console.comesTo_called _ .flush)

theorem Asked.comesTo {fuel : Nat} {result : Except Failure Int64 × LineReader}
    (asked : Asked prompt fuel reader result) : reader.console.ComesTo result.2.console := by
  induction asked with
  | spent => exact .refl _
  | unshown shows | unread shows | answered shows =>
    have shown := display_comesTo shows
    exact shown
  | unretried shows _ _ retries =>
    have shown := display_comesTo shows
    have again := display_comesTo retries
    exact shown.trans again
  | retried shows _ _ retries _ ih =>
    have shown := display_comesTo shows
    have again := display_comesTo retries
    exact (Console.ComesTo.trans shown again).trans ih

end LineReader

namespace Machine

variable {m next last after : Machine} {halt : Halt}

theorem traced_comesTo (m : Machine) (label message : Text) :
    m.console.ComesTo (m.traced label message).console := by
  unfold traced
  split
  · exact m.console.comesTo_called (.trace _)
  · exact .refl _

theorem ready_comesTo (m : Machine) : m.console.ComesTo m.ready.console := m.fetched.traced_comesTo _ _

theorem flushed_comesTo (m : Machine) : m.console.ComesTo m.flushed.console := m.console.comesTo_called .flush

theorem closing_comesTo (m : Machine) (cause : Option Failure) :
    m.console.ComesTo (m.closing cause).console :=
  m.flushed_comesTo.trans (m.flushed.traced_comesTo _ _)

theorem ending_comesTo (m : Machine) (trouble : Trouble) :
    m.console.ComesTo (m.ending trouble).2.console := by
  cases trouble with
  | fault cause => exact m.closing_comesTo _
  | crash error => exact .refl _

theorem asked_comesTo (m : Machine) (prompt : Text) : m.console.ComesTo (m.asked prompt).2.console := by
  cases scripted : m.script.bind fun i => m.scripts[i]? with
  | some script =>
    obtain ⟨i, used, found⟩ := Option.bind_eq_some_iff.mp scripted
    rw [asked_of_script used found]
    exact .refl _
  | none =>
    rw [asked_of_typed scripted]
    exact (LineReader.readWithin_asked prompt _ ⟨m.console, m.input⟩).comesTo

theorem answered_comesTo (m : Machine) (name : Text) : m.console.ComesTo (m.answered name).2.console :=
  (m.ready_comesTo.trans m.ready.flushed_comesTo).trans (m.ready.flushed.asked_comesTo _)

theorem Steps.comesTo (steps : m.Steps next) : m.console.ComesTo next.console := by
  cases steps with
  | write | goto | next => exact m.ready_comesTo
  | print => exact m.ready_comesTo.trans (m.ready.console.comesTo_called (.write _))
  | read => exact m.answered_comesTo _

theorem Halts.comesTo (halts : m.Halts halt after) : m.console.ComesTo after.console := by
  cases halts with
  | limit => exact m.fetched.ending_comesTo _
  | stop => exact m.ready_comesTo.trans (m.ready.closing_comesTo _)
  | trouble | badJump => exact m.ready_comesTo.trans (m.ready.ending_comesTo _)
  | @unshown value =>
    have shown := m.ready_comesTo.trans (m.ready.console.comesTo_called (.write value.toText.line.bytes))
    exact shown.trans (closing_comesTo { m.ready with
      console := (m.ready.console.write value.toText.line.bytes).2 } _)
  | unflushed =>
    exact (m.ready_comesTo.trans m.ready.flushed_comesTo).trans (m.ready.flushed.closing_comesTo _)
  | unnamed => exact m.ready_comesTo.trans m.ready.flushed_comesTo
  | unanswered => exact (m.answered_comesTo _).trans (closing_comesTo _ _)
  | unstored => exact (m.answered_comesTo _).trans (ending_comesTo _ _)

theorem Reaches.comesTo (reaches : m.Reaches last) : m.console.ComesTo last.console :=
  Reaches.keeps (P := fun last => m.console.ComesTo last.console) reaches
    (fun _ _ steps before => before.trans steps.comesTo) (.refl _)

theorem Ends.comesTo {interruption : Option Failure} {halt : Option Halt}
    (ends : m.Ends interruption halt after) : m.console.ComesTo after.console := by
  cases ends with
  | halt _ halts => exact halts.comesTo
  | @interrupted _ next _ steps => exact steps.comesTo.trans (next.closing_comesTo _)
  | past => exact m.flushed_comesTo
  | unflushed => exact m.flushed_comesTo.trans (m.flushed.closing_comesTo _)

theorem run_comesTo (m : Machine) (context : Context) (fuel : Nat) :
    m.console.ComesTo (m.run context fuel).2.console := by
  have comes := m.run_comes context fuel
  generalize m.run context fuel = result at comes
  cases comes with
  | outOfFuel goes =>
    have comesTo := Reaches.comesTo goes.reaches
    exact comesTo
  | past goes ends | halted goes ends =>
    have comesTo := Reaches.comesTo goes.reaches
    exact comesTo.trans ends.comesTo

theorem close_comesTo (m : Machine) : m.console.ComesTo m.close.2.console := by
  unfold close
  split <;> exact .refl _

/-- A machine after any number of runs and closings of another one. -/
inductive Continues (m : Machine) : Machine → Prop
  | self : Continues m m
  | run {last : Machine} (before : Continues m last) (context : Context) (fuel : Nat) :
      Continues m (last.run context fuel).2
  | close {last : Machine} (before : Continues m last) : Continues m last.close.2

theorem Continues.comesTo (continues : m.Continues last) : m.console.ComesTo last.console := by
  induction continues with
  | self => exact .refl _
  | run _ context fuel ih => exact ih.trans (run_comesTo _ context fuel)
  | close _ ih => exact ih.trans (close_comesTo _)

end Machine

end MiniPascal
