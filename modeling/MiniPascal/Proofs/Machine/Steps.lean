import MiniPascal.Proofs.Machine.Memory

/-! # What a step can do

A step of a machine either leads to the next state or ends the run. Both are listed here with all that
is known: `Steps` has one case for each way to go on, `Halts` one for each way to end. What holds of
every step is then proved by going through the cases.
-/

namespace MiniPascal

open Outcome

namespace Machine

/-- The machine with another memory. -/
def withSymbols (m : Machine) (symbols : SymbolTable) : Machine :=
  { m with program := { m.program with symbols } }

/-- The machine after its console was flushed. -/
def flushed (m : Machine) : Machine := { m with console := m.console.flush.2 }

/-- The machine after a run that ends in an orderly way. -/
def closing (m : Machine) (cause : Option Failure) : Machine :=
  m.flushed.traced "#" (Exec.haltText (cause.or m.console.flush.1))

/-- The fault of the quad fetched last. -/
def faultBy (m : Machine) (cause : Failure) : Failure := .fault m.current m.quad cause

/-- How a run ends in trouble, and the machine that is left. -/
def ending (m : Machine) : Trouble → Halt × Machine
  | .fault cause => (.stopped (some (m.faultBy cause)), m.closing (some (m.faultBy cause)))
  | .crash error => (.crashed error, m)

/-- What the next quad does. -/
def intent (m : Machine) : Outcome Action := m.next.action m.program.symbols

/-- The answer to a prompt for a cell, given when the quad is executed. -/
def answered (m : Machine) (name : Text) : Except Failure Int64 × Machine :=
  m.ready.flushed.asked (Exec.prompt name)

/-- The ways to go on. -/
inductive Steps (m : Machine) : Machine → Prop
  | write {symbols : SymbolTable} (within : ¬ m.OverLimit) (does : m.intent = .ok (.write symbols)) :
      Steps m (m.ready.withSymbols symbols)
  | goto {target : Nat} (within : ¬ m.OverLimit) (does : m.intent = .ok (.goto target)) :
      Steps m { m.ready with pc := target }
  | next (within : ¬ m.OverLimit) (does : m.intent = .ok .next) : Steps m m.ready
  | print {value : Value} (within : ¬ m.OverLimit) (does : m.intent = .ok (.print value))
      (shown : (m.ready.console.write value.toText.line.bytes).1.failure = none) :
      Steps m { m.ready with console := (m.ready.console.write value.toText.line.bytes).2 }
  | read {i : Int} {name : Text} {n : Int64} {symbols : SymbolTable} (within : ¬ m.OverLimit)
      (does : m.intent = .ok (.read i)) (clear : m.ready.console.flush.1 = none)
      (named : m.program.symbols.name i = .ok name) (answers : (m.answered name).1 = .ok n)
      (stores : m.program.symbols.stored i (.int n) = .ok symbols) :
      Steps m ((m.answered name).2.withSymbols symbols)

/-- The ways to end. -/
inductive Halts (m : Machine) : Halt → Machine → Prop
  | limit (reached : m.OverLimit) :
      Halts m (m.fetched.ending (.fault .stepLimit)).1 (m.fetched.ending (.fault .stepLimit)).2
  | stop (within : ¬ m.OverLimit) (does : m.intent = .ok .stop) :
      Halts m (.stopped m.ready.console.flush.1) (m.ready.closing none)
  | trouble {trouble : Trouble} (within : ¬ m.OverLimit) (does : m.intent = .error trouble) :
      Halts m (m.ready.ending trouble).1 (m.ready.ending trouble).2
  | badJump {target : Int} (within : ¬ m.OverLimit) (does : m.intent = .ok (.goto target))
      (bad : target < 0) :
      Halts m (m.ready.ending (.fault (.badJump target))).1 (m.ready.ending (.fault (.badJump target))).2
  | unshown {value : Value} {failure : Failure} (within : ¬ m.OverLimit)
      (does : m.intent = .ok (.print value))
      (fails : (m.ready.console.write value.toText.line.bytes).1.failure = some failure) :
      Halts m (.stopped (some failure))
        (closing { m.ready with console := (m.ready.console.write value.toText.line.bytes).2 }
          (some failure))
  | unflushed {i : Int} {failure : Failure} (within : ¬ m.OverLimit)
      (does : m.intent = .ok (.read i)) (fails : m.ready.console.flush.1 = some failure) :
      Halts m (.stopped (some failure)) (m.ready.flushed.closing (some failure))
  | unnamed {i : Int} {error : AccessError} (within : ¬ m.OverLimit)
      (does : m.intent = .ok (.read i)) (clear : m.ready.console.flush.1 = none)
      (missing : m.program.symbols.name i = .error error) : Halts m (.crashed error) m.ready.flushed
  | unanswered {i : Int} {name : Text} {failure : Failure} (within : ¬ m.OverLimit)
      (does : m.intent = .ok (.read i)) (clear : m.ready.console.flush.1 = none)
      (named : m.program.symbols.name i = .ok name)
      (fails : (m.answered name).1 = .error failure) :
      Halts m (.stopped (some failure)) ((m.answered name).2.closing (some failure))
  | unstored {i : Int} {name : Text} {n : Int64} {trouble : Trouble} (within : ¬ m.OverLimit)
      (does : m.intent = .ok (.read i)) (clear : m.ready.console.flush.1 = none)
      (named : m.program.symbols.name i = .ok name) (answers : (m.answered name).1 = .ok n)
      (fails : m.program.symbols.stored i (.int n) = .error trouble) :
      Halts m ((m.answered name).2.ending trouble).1 ((m.answered name).2.ending trouble).2

theorem Steps.within {m after : Machine} (steps : m.Steps after) : ¬ m.OverLimit := by
  cases steps with
  | write within | goto within | next within | print within | read within => exact within

/-! ## Asking for an integer -/

theorem asked_of_script {m : Machine} {i : Nat} {script : Script} (used : m.script = some i)
    (found : m.scripts[i]? = some script) (prompt : Text) :
    m.asked prompt = ((script.read prompt).1,
      { m with scripts := m.scripts.set! i (script.read prompt).2 }) := by
  simp [asked, used, found]

theorem asked_of_typed {m : Machine} (typed : (m.script.bind fun i => m.scripts[i]?) = none) (prompt : Text) :
    m.asked prompt = (((LineReader.mk m.console m.input).readInteger prompt).1,
      { m with
        console := ((LineReader.mk m.console m.input).readInteger prompt).2.console
        input := ((LineReader.mk m.console m.input).readInteger prompt).2.input }) := by
  have none : (m.script.bind fun i => m.scripts[i]?.map fun script => (i, script.read prompt)) = none := by
    cases used : m.script with
    | none => rfl
    | some i =>
      rw [used] at typed
      exact Option.map_eq_none_iff.mpr typed
  simp only [asked, none]

/-! ## What stays as it is -/

/-- Two machines that differ in nothing but what their surroundings see of them. -/
structure SameState (m after : Machine) : Prop where
  program : after.program = m.program
  pc : after.pc = m.pc
  current : after.current = m.current
  quad : after.quad = m.quad
  steps : after.steps = m.steps
  stepLimit : after.stepLimit = m.stepLimit

theorem SameState.trans {m middle after : Machine} (first : SameState m middle)
    (second : SameState middle after) : SameState m after :=
  ⟨second.program.trans first.program, second.pc.trans first.pc, second.current.trans first.current,
    second.quad.trans first.quad, second.steps.trans first.steps,
    second.stepLimit.trans first.stepLimit⟩

theorem sameState_traced (m : Machine) (label message : Text) : SameState m (m.traced label message) := by
  unfold traced
  split <;> exact ⟨rfl, rfl, rfl, rfl, rfl, rfl⟩

theorem sameState_flushed (m : Machine) : SameState m m.flushed := ⟨rfl, rfl, rfl, rfl, rfl, rfl⟩

theorem sameState_closing (m : Machine) (cause : Option Failure) : SameState m (m.closing cause) :=
  m.sameState_flushed.trans (m.flushed.sameState_traced _ _)

theorem sameState_asked (m : Machine) (prompt : Text) : SameState m (m.asked prompt).2 := by
  unfold asked
  split <;> exact ⟨rfl, rfl, rfl, rfl, rfl, rfl⟩

theorem sameState_answered (m : Machine) (name : Text) : SameState m.ready (m.answered name).2 :=
  m.ready.sameState_flushed.trans (m.ready.flushed.sameState_asked _)

theorem sameState_ending (m : Machine) (trouble : Trouble) : SameState m (m.ending trouble).2 := by
  cases trouble with
  | fault cause => exact m.sameState_closing _
  | crash => exact ⟨rfl, rfl, rfl, rfl, rfl, rfl⟩

end Machine

/-! ## Steps and the relations agree -/

namespace Exec

open Machine

theorem halt_eq {α : Type} (cause : Option Failure) (m : Machine) :
    (halt cause : Exec α) m = .error (.stopped (cause.or m.console.flush.1)) (m.closing cause) := rfl

theorem fault_eq {α : Type} (cause : Failure) (m : Machine) :
    (fault cause : Exec α) m = .error (m.ending (.fault cause)).1 (m.ending (.fault cause)).2 := rfl

theorem haltIf_none (m : Machine) : haltIf none m = .ok () m := rfl

theorem haltIf_some (failure : Failure) (m : Machine) :
    haltIf (some failure) m = .error (.stopped (some failure)) (m.closing (some failure)) := rfl

theorem print_eq (value : Value) (m : Machine) :
    print value m = haltIf (m.console.write value.toText.line.bytes).1.failure
      { m with console := (m.console.write value.toText.line.bytes).2 } := rfl

theorem jump_of_nat (target : Nat) (m : Machine) : jump target m = .ok () { m with pc := target } := by
  unfold jump
  rw [if_neg (by omega)]
  rfl

theorem jump_of_neg {target : Int} (bad : target < 0) (m : Machine) :
    jump target m = fault (.badJump target) m := by
  unfold jump
  rw [if_pos bad]

/-- Puts the answer to a prompt into a cell. -/
def take (i : Int) : Except Failure Int64 → Exec Unit
  | .ok n => store i (.int n)
  | .error failure => halt (some failure)

theorem read_of_clear {m : Machine} {i : Int} (clear : m.console.flush.1 = none) :
    read i m = (perform (ofAccess (m.program.symbols.name i)) >>= fun name =>
      readInteger (prompt name) >>= take i) m.flushed := by
  change (haltIf m.console.flush.1 >>= fun _ => ask (·.name i) >>= fun name =>
    readInteger (prompt name) >>= take i : Exec Unit) m.flushed = _
  rw [clear]
  exact ask_bind _ _ m.flushed

theorem store_of_ok {i : Int} {value : Value} {m : Machine} {symbols : SymbolTable}
    (stores : m.program.symbols.stored i value = .ok symbols) :
    store i value m = .ok () (m.withSymbols symbols) := by
  rw [store_eq, stores]
  rfl

theorem store_of_error {i : Int} {value : Value} {m : Machine} {trouble : Trouble}
    (fails : m.program.symbols.stored i value = .error trouble) :
    store i value m = .error (m.ending trouble).1 (m.ending trouble).2 := by
  rw [store_eq, fails]
  cases trouble <;> rfl

theorem step_of_intent {m : Machine} {action : Action} (within : ¬ m.OverLimit)
    (does : m.intent = .ok action) : step m = act action m.ready := by
  rw [step_eq within, show m.next.action m.program.symbols = .ok action from does]
  rfl

theorem step_of_trouble {m : Machine} {trouble : Trouble} (within : ¬ m.OverLimit)
    (does : m.intent = .error trouble) :
    step m = .error (m.ready.ending trouble).1 (m.ready.ending trouble).2 := by
  rw [step_eq within, show m.next.action m.program.symbols = .error trouble from does]
  cases trouble <;> rfl

/-- Reading takes the answer when nothing is held back and the cell has a name. -/
theorem step_of_read {m : Machine} {i : Int} {name : Text} (within : ¬ m.OverLimit)
    (does : m.intent = .ok (.read i)) (clear : m.ready.console.flush.1 = none)
    (named : m.program.symbols.name i = .ok name) :
    step m = take i (m.answered name).1 (m.answered name).2 := by
  rw [step_of_intent within does]
  change read i m.ready = _
  rw [read_of_clear clear, m.program_ready, named]
  rfl

end Exec

namespace Machine

open Exec

theorem Steps.eq {m after : Machine} (steps : m.Steps after) : step m = .ok () after := by
  cases steps with
  | write within does => exact step_of_intent within does
  | next within does => exact step_of_intent within does
  | goto within does => exact (step_of_intent within does).trans (jump_of_nat _ _)
  | print within does shown =>
    rw [step_of_intent within does]
    change Exec.print _ m.ready = _
    rw [print_eq, shown, haltIf_none]
  | read within does clear named answers stores =>
    rw [step_of_read within does clear named, answers]
    refine store_of_ok ?_
    rw [(m.sameState_answered _).program, m.program_ready, stores]

theorem Halts.eq {m after : Machine} {halt : Halt} (halts : m.Halts halt after) :
    step m = .error halt after := by
  cases halts with
  | limit reached => exact (step_of_overLimit reached).trans (fault_eq _ _)
  | stop within does => exact (step_of_intent within does).trans (halt_eq none _)
  | trouble within does => exact step_of_trouble within does
  | badJump within does bad =>
    exact (step_of_intent within does).trans ((jump_of_neg bad _).trans (fault_eq _ _))
  | unshown within does fails =>
    rw [step_of_intent within does]
    change Exec.print _ m.ready = _
    rw [print_eq, fails, haltIf_some]
  | unflushed within does fails =>
    rw [step_of_intent within does]
    change (haltIf m.ready.console.flush.1 >>= _ : Exec Unit) m.ready.flushed = _
    rw [fails]
    exact congrFun (halt_bind _ _) _
  | unnamed within does clear missing =>
    rw [step_of_intent within does]
    change Exec.read _ m.ready = _
    rw [read_of_clear clear, m.program_ready, missing]
    rfl
  | unanswered within does clear named fails =>
    rw [step_of_read within does clear named, fails]
    exact halt_eq _ _
  | unstored within does clear named answers fails =>
    rw [step_of_read within does clear named, answers]
    refine store_of_error ?_
    rw [(m.sameState_answered _).program, m.program_ready, fails]

/-- The steps and the ends of a machine are those that the relations list. -/
theorem step_leads (m : Machine) : Leads step m (fun _ after => m.Steps after) m.Halts := by
  have goes {after : Machine} (steps : m.Steps after) :
      Leads step m (fun _ after => m.Steps after) m.Halts := .of_ok steps.eq steps
  have ends {halt : Halt} {after : Machine} (halts : m.Halts halt after) :
      Leads step m (fun _ after => m.Steps after) m.Halts := .of_error halts.eq halts
  by_cases within : m.OverLimit
  · exact ends (.limit within)
  cases does : m.intent with
  | error trouble => exact ends (.trouble within does)
  | ok action =>
    cases action with
    | write symbols => exact goes (.write within does)
    | next => exact goes (.next within does)
    | stop => exact ends (.stop within does)
    | goto target =>
      by_cases bad : target < 0
      · exact ends (.badJump within does bad)
      · obtain ⟨n, rfl⟩ := Int.eq_ofNat_of_zero_le (Int.not_lt.mp bad)
        exact goes (.goto within does)
    | print value =>
      cases shown : (m.ready.console.write value.toText.line.bytes).1.failure with
      | none => exact goes (.print within does shown)
      | some failure => exact ends (.unshown within does shown)
    | read i =>
      cases clear : m.ready.console.flush.1 with
      | some failure => exact ends (.unflushed within does clear)
      | none =>
        cases named : m.program.symbols.name i with
        | error error => exact ends (.unnamed within does clear named)
        | ok name =>
          cases answers : (m.answered name).1 with
          | error failure => exact ends (.unanswered within does clear named answers)
          | ok n =>
            cases stores : m.program.symbols.stored i (.int n) with
            | ok symbols => exact goes (.read within does clear named answers stores)
            | error trouble => exact ends (.unstored within does clear named answers stores)

end Machine

end MiniPascal
