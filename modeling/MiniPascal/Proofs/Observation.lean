import MiniPascal.Proofs.Compiler.Likeness
import MiniPascal.Proofs.Machine.Twins

/-! # Watching changes nothing

What is watched during a compilation only adds to its journal, and a trace only adds lines to what leaves a
machine. So a compilation comes to the same program and verdict whatever is watched, and a run comes to the
same end and to the same machine, apart from the lines that were traced.
-/

namespace MiniPascal

/-! ## Compilations -/

theorem Cell.Like.eq {cell other : Cell} (like : cell.Like Eq other) : cell = other := by
  obtain ⟨name, usage, value⟩ := like
  cases cell
  cases other
  simp_all only

theorem SymbolTable.Like.eq {table other : SymbolTable} (like : table.Like Eq other) : table = other := by
  obtain ⟨capacity, index, cells⟩ := like
  have cells : table.cells.toList = other.cells.toList := by
    rw [← List.forall₂_eq_eq_eq]
    exact cells.imp fun _ _ like => like.eq
  have cells : table.cells = other.cells := Array.toList_inj.mp cells
  cases table
  cases other
  simp_all only

theorem Scanned.Like.refl (item : Scanned) : item.Like Eq item where
  kind := rfl
  text := rfl
  errors := rfl
  cell := by
    cases item.cell? with
    | none => exact .none
    | some cell => exact .some ⟨rfl, rfl, rfl⟩

/-- What is watched does not matter to a compilation. -/
theorem compile_watch (options : CompileOptions) (input : Input) (watch : Watch) :
    (compile { options with watch } input).program = (compile options input).program ∧
      (compile { options with watch } input).verdict = (compile options input).verdict := by
  have items : List.Forall₂ (Scanned.Like Eq) (Session.start options input).unread _ :=
    List.forall₂_same.mpr fun item _ => .refl item
  have like : (compile { options with watch } input).Like Eq (compile options input) :=
    compile_alike .exact rfl rfl items
  refine ⟨?_, like.verdict⟩
  have quads := like.quads
  have symbols := like.symbols.eq
  generalize (compile { options with watch } input).program = first at *
  generalize (compile options input).program = second at *
  cases first
  cases second
  simp_all only

/-! ## Runs -/

namespace Machine

/-- Two machines that differ in nothing but what they trace. -/
def SameUntraced (m other : Machine) : Prop := m.untraced = other.untraced

namespace SameUntraced

variable {m other after : Machine} {interruption : Option Failure}

theorem inside_iff (same : SameUntraced m other) : m.Inside ↔ other.Inside := by
  have inside : m.untraced.Inside ↔ other.untraced.Inside := by rw [show m.untraced = _ from same]
  exact inside

theorem clear (same : SameUntraced m other) : m.console.flush.1 = other.console.flush.1 := by
  rw [← view_untraced.clear, show m.untraced = _ from same, view_untraced.clear]

theorem flushed (same : SameUntraced m other) : SameUntraced m.flushed other.flushed := by
  unfold SameUntraced at *
  rw [← view_untraced.flushed, same, view_untraced.flushed]

theorem closing (same : SameUntraced m other) (cause : Option Failure) :
    SameUntraced (m.closing cause) (other.closing cause) := by
  unfold SameUntraced at *
  rw [← view_untraced.closing, same, view_untraced.closing]

theorem events (same : SameUntraced m other) (number : Nat) :
    m.console.devices.events number = other.console.devices.events number := by
  rw [← Devices.events_untraced, ← other.console.devices.events_untraced]
  exact congrArg (fun machine => machine.console.devices.events number) same

theorem steps (same : SameUntraced m other) (steps : m.Steps after) :
    ∃ after', other.Steps after' ∧ SameUntraced after after' := by
  have goes := steps.untraced
  rw [show m.untraced = _ from same] at goes
  obtain ⟨after', steps', same'⟩ := steps_of_untraced goes
  exact ⟨after', steps', same'.symm⟩

/-- The runs end in the same way. -/
theorem ends {halt : Option Halt} (same : SameUntraced m other) (ends : m.Ends interruption halt after) :
    ∃ after', other.Ends interruption halt after' ∧ SameUntraced after after' := by
  cases ends with
  | halt inside halts =>
    have halts := halts.untraced
    rw [show m.untraced = _ from same] at halts
    obtain ⟨after', halts', same'⟩ := halts_of_untraced halts
    exact ⟨after', .halt (same.inside_iff.mp inside) halts', same'.symm⟩
  | interrupted inside steps called =>
    obtain ⟨next', steps', same'⟩ := same.steps steps
    exact ⟨_, .interrupted (same.inside_iff.mp inside) steps' called, same'.closing _⟩
  | past outside clear =>
    exact ⟨_, .past (mt same.inside_iff.mpr outside) (same.clear.symm.trans clear), same.flushed⟩
  | unflushed outside fails =>
    exact ⟨_, .unflushed (mt same.inside_iff.mpr outside) (same.clear.symm.trans fails),
      same.flushed.closing _⟩

theorem runWithin (context : Context) (fuel : Nat) : ∀ (done : Nat) (m other : Machine),
    SameUntraced m other → SameResult SameUntraced (Exec.runWithin context done fuel m)
      (Exec.runWithin context done fuel other) := by
  induction fuel with
  | zero => exact fun done m other same => .error .outOfFuel same
  | succ fuel ih =>
    intro done m other same
    obtain ⟨quiet, next, steps⟩ | ⟨halt, after, ends⟩ := steps_or_ends (context done) m
    · obtain ⟨next', steps', same'⟩ := same.steps steps
      rw [runWithin_of_steps steps quiet, runWithin_of_steps steps' quiet]
      exact ih (done + 1) next next' same'
    · obtain ⟨after', ends', same'⟩ := same.ends ends
      rw [runWithin_of_ends ends, runWithin_of_ends ends']
      exact .ended same' halt

/-- The runs come to the same end, and to machines that still differ in nothing but what they trace. -/
theorem run (same : SameUntraced m other) (context : Context) (fuel : Nat) :
    (m.run context fuel).1 = (other.run context fuel).1 ∧
      SameUntraced (m.run context fuel).2 (other.run context fuel).2 := by
  have start : SameUntraced m.rewind other.rewind := congrArg Machine.rewind same
  have results := runWithin context fuel 0 _ _ start
  unfold Machine.run
  generalize Exec.runWithin context 0 fuel m.rewind = result at results ⊢
  generalize Exec.runWithin context 0 fuel other.rewind = result' at results ⊢
  cases results with
  | ok same => exact ⟨rfl, same⟩
  | error halt same =>
    have failure := congrArg (runFailure? · halt) same
    cases halt with
    | outOfFuel => exact ⟨rfl, same⟩
    | stopped | crashed => exact ⟨congrArg RunEnd.finished failure, same⟩

end SameUntraced

/-- The machine with a trace or without one. -/
def withTracing (m : Machine) (tracing : Bool) : Machine := { m with tracing }

/-- Two runs have the same outcome: they end alike, at the same place, with all that is stored, asked of
the devices or left to read. -/
structure SameOutcome (first second : RunEnd × Machine) : Prop where
  ends : first.1 = second.1
  pc : first.2.pc = second.2.pc
  steps : first.2.steps = second.2.steps
  program : first.2.program = second.2.program
  events : ∀ number, first.2.console.devices.events number = second.2.console.devices.events number
  outlets : first.2.console.outlets = second.2.console.outlets
  input : first.2.input = second.2.input
  scripts : first.2.scripts = second.2.scripts

end Machine

/-- What is watched changes neither the program nor the verdict of a compilation. Tracing changes
nothing about a run but the trace. -/
theorem observing_changes_nothing :
    (∀ (options : CompileOptions) (input : Input) (watch watch' : Watch),
      (compile { options with watch } input).program =
        (compile { options with watch := watch' } input).program ∧
      (compile { options with watch } input).verdict =
        (compile { options with watch := watch' } input).verdict) ∧
    ∀ (m : Machine) (on off : Bool) (context : Context) (fuel : Nat), Machine.SameOutcome
      ((m.withTracing on).run context fuel) ((m.withTracing off).run context fuel) := by
  constructor
  · intro options input watch watch'
    obtain ⟨program, verdict⟩ := compile_watch { options with watch := watch' } input watch
    exact ⟨program, verdict⟩
  · intro m on off context fuel
    have same : (m.withTracing on).SameUntraced (m.withTracing off) := rfl
    obtain ⟨ends, later⟩ := same.run context fuel
    have rest : ((m.withTracing on).run context fuel).2.untraced =
        ((m.withTracing off).run context fuel).2.untraced := later
    have pc := congrArg Machine.pc rest
    have steps := congrArg Machine.steps rest
    have program := congrArg Machine.program rest
    have outlets := congrArg (fun machine => machine.console.outlets) rest
    have input := congrArg Machine.input rest
    have scripts := congrArg Machine.scripts rest
    exact ⟨ends, pc, steps, program, later.events, outlets, input, scripts⟩

end MiniPascal
