import MiniPascal.Proofs.Computation
import MiniPascal.Proofs.Tables

/-! # What a quad does

A quad is executed in two parts. What it does to the memory, and where it leads, is a function of the
memory alone (`Quad.action`); this part may fail. The rest is an action of the machine: to change the
memory, to go on elsewhere, to print or read, or to stop.
-/

namespace MiniPascal

variable {α β : Type}

/-- What keeps a quad from being executed: a fault, or an access that breaks the run off. -/
inductive Trouble where
  | fault (cause : Failure)
  | crash (error : AccessError)

/-- A result, unless there is trouble. -/
abbrev Outcome := Except Trouble

namespace Outcome

/-- The result of an access to the memory. -/
def ofAccess : Except AccessError α → Outcome α
  | .ok a => .ok a
  | .error error => .error (.crash error)

/-- The result of an operation. -/
def ofResult : Except Failure α → Outcome α
  | .ok a => .ok a
  | .error cause => .error (.fault cause)

end Outcome

open Outcome

/-- The value of an operation on two values: in integers if both are, otherwise in reals. -/
def compute (op : Opcode) (x y : Value) : Outcome Value :=
  match x, y with
  | .int a, .int b => do return .int (← ofResult (integerOperation op a b))
  | x, y => do
    let a ← ofAccess x.toReal
    let b ← ofAccess y.toReal
    return .real (← ofResult (realOperation op a b))

/-- A value as a cell of the given kind takes it. -/
def Value.converted (value : Value) (kind : Kind) : Outcome Value :=
  match value, kind with
  | .int n, .real => .ok (.real (Float.ofInt n.toInt))
  | .real x, .integer => do return .int (← ofResult (realToWord x))
  | value, _ => .ok value

/-- The memory after a value was stored in a cell. -/
def SymbolTable.stored (symbols : SymbolTable) (i : Int) (value : Value) : Outcome SymbolTable := do
  let kind ← ofAccess (symbols.kind i)
  let value ← value.converted kind
  let usage ← ofAccess (symbols.usage i)
  ofAccess (symbols.update i usage value)

/-- What a machine does with a quad. -/
inductive Action where
  | write (symbols : SymbolTable)
  | goto (target : Int)
  | next
  | print (value : Value)
  | read (i : Int)
  | stop

/-- What a quad does with the given memory. -/
def Quad.action (q : Quad) (symbols : SymbolTable) : Outcome Action :=
  match q.op with
  | .stop => .ok .stop
  | .div | .mul | .sub | .add => do
    let x ← ofAccess (symbols.value q.a)
    let y ← ofAccess (symbols.value q.b)
    let value ← compute q.op x y
    return .write (← symbols.stored q.c value)
  | .mov => do
    let value ← ofAccess (symbols.value q.a)
    return .write (← symbols.stored q.c value)
  | .print => do return .print (← ofAccess (symbols.value q.c))
  | .read => .ok (.read q.c)
  | .jmp => .ok (.goto q.c)
  | .jz | .jp | .jn | .jnz | .jnp | .jnn => do
    let x ← ofAccess (symbols.value q.a)
    let sign ← ofAccess x.sign
    return if q.op.taken sign then .goto q.c else .next
  | .jindr => do return .goto (← ofAccess (symbols.int q.c)).toInt
  | .invalid _ => .error (.fault (.badOpcode q.op))

namespace Exec

/-- A result, or the end of the run that the trouble means. -/
def perform : Outcome α → Exec α
  | .ok a => pure a
  | .error (.fault cause) => fault cause
  | .error (.crash error) => throw (.crashed error)

/-- Takes an action. -/
def act : Action → Exec Unit
  | .write symbols => modify fun m => { m with program := { m.program with symbols } }
  | .goto target => jump target
  | .next => pure ()
  | .print value => print value
  | .read i => read i
  | .stop => halt none

theorem halt_bind (cause : Option Failure) (f : α → Exec β) : (halt cause >>= f) = halt cause := by
  funext m
  rfl

theorem fault_bind (cause : Failure) (f : α → Exec β) : (fault cause >>= f) = fault cause := by
  funext m
  rfl

theorem perform_bind (x : Outcome α) (f : α → Outcome β) :
    perform (x >>= f) = perform x >>= fun a => perform (f a) := by
  match x with
  | .ok a => rfl
  | .error (.fault cause) => exact (fault_bind cause _).symm
  | .error (.crash error) => rfl

theorem ask_eq (read : SymbolTable → Except AccessError α) (m : Machine) :
    ask read m = perform (ofAccess (read m.program.symbols)) m := by
  change (match read m.program.symbols with
    | .ok a => pure a
    | .error error => throw (.crashed error) : Exec α) m = _
  cases read m.program.symbols <;> rfl

theorem checked_eq (x : Except AccessError α) : checked x = perform (ofAccess x) := by
  cases x <;> rfl

theorem orFault_eq (x : Except Failure α) : orFault x = perform (ofResult x) := by
  cases x <;> rfl

theorem calculate_eq (op : Opcode) (x y : Value) : calculate op x y = perform (compute op x y) := by
  unfold calculate compute
  split
  · rw [orFault_eq, perform_bind]
    rfl
  · simp only [checked_eq, orFault_eq, perform_bind]
    rfl

theorem convert_eq (value : Value) (kind : Kind) :
    convert value kind = perform (value.converted kind) := by
  cases value with
  | int => cases kind <;> rfl
  | text => cases kind <;> rfl
  | real x =>
    cases kind with
    | integer =>
      change orFault (realToWord x) >>= _ = perform (ofResult (realToWord x) >>= _)
      rw [orFault_eq, perform_bind]
      rfl
    | _ => rfl

/-- What a computation does that leaves the machine as it is up to a result. -/
theorem perform_bind_apply (x : Outcome α) (f g : α → Exec β) (m : Machine)
    (same : ∀ a, x = .ok a → f a m = g a m) : (perform x >>= f) m = (perform x >>= g) m := by
  match x with
  | .ok a => exact same a rfl
  | .error (.fault cause) => rw [perform, fault_bind, fault_bind]
  | .error (.crash error) => rfl

theorem ask_bind (read : SymbolTable → Except AccessError α) (f : α → Exec β) (m : Machine) :
    (ask read >>= f) m = (perform (ofAccess (read m.program.symbols)) >>= f) m := by
  change EStateM.bind _ _ _ = EStateM.bind _ _ _
  unfold EStateM.bind
  rw [ask_eq]

theorem store_eq (i : Int) (value : Value) (m : Machine) :
    store i value m = (perform (m.program.symbols.stored i value) >>= fun symbols =>
      act (.write symbols)) m := by
  unfold SymbolTable.stored
  simp only [perform_bind, bind_assoc]
  unfold store
  rw [ask_bind]
  refine perform_bind_apply _ _ _ _ fun kind _ => ?_
  rw [convert_eq]
  refine perform_bind_apply _ _ _ _ fun value _ => ?_
  rw [ask_bind]
  refine perform_bind_apply _ _ _ _ fun usage _ => ?_
  exact ask_bind _ _ m

theorem execute_eq (q : Quad) (m : Machine) :
    execute q m = (perform (q.action m.program.symbols) >>= act) m := by
  obtain ⟨op, a, b, c⟩ := q
  cases op with
  | stop | read | jmp => rfl
  | div | mul | sub | add =>
    simp only [execute, Quad.action, perform_bind, bind_assoc]
    rw [ask_bind]
    refine perform_bind_apply _ _ _ _ fun x _ => ?_
    rw [ask_bind]
    refine perform_bind_apply _ _ _ _ fun y _ => ?_
    rw [calculate_eq]
    exact perform_bind_apply _ _ _ _ fun value _ => store_eq c value m
  | mov =>
    simp only [execute, Quad.action, perform_bind, bind_assoc]
    rw [ask_bind]
    exact perform_bind_apply _ _ _ _ fun value _ => store_eq c value m
  | print | jindr =>
    simp only [execute, Quad.action, perform_bind, bind_assoc]
    rw [ask_bind]
    rfl
  | jz | jp | jn | jnz | jnp | jnn =>
    simp only [execute, Quad.action, perform_bind, bind_assoc]
    rw [ask_bind]
    refine perform_bind_apply _ _ _ _ fun x _ => ?_
    rw [checked_eq]
    refine perform_bind_apply _ _ _ _ fun sign _ => ?_
    split <;> rfl
  | invalid => exact congrFun (fault_bind _ _).symm m

end Exec

/-! ## Fetching a quad -/

namespace Machine

/-- The quad to execute next. -/
def next (m : Machine) : Quad := m.program.quads.get m.pc

/-- The machine that has fetched its next quad and counted it. -/
def fetched (m : Machine) : Machine :=
  { m with
    current := m.pc
    quad := m.next
    pc := m.pc + 1
    steps := if 0 < m.stepLimit then m.steps + 1 else m.steps }

/-- The next quad is one too many. -/
def OverLimit (m : Machine) : Prop := 0 < m.stepLimit ∧ m.stepLimit < m.fetched.steps

instance (m : Machine) : Decidable m.OverLimit := inferInstanceAs (Decidable (_ ∧ _))

/-- The machine as it executes its next quad, after tracing it. -/
def ready (m : Machine) : Machine :=
  m.fetched.traced "exec"
    (.join ["@", .fourPlaces m.pc, " ", Exec.quadText m.program.symbols m.next])

theorem ready_eq (m : Machine) : m.ready.program = m.program ∧ m.ready.pc = m.pc + 1 ∧
    m.ready.current = m.pc ∧ m.ready.quad = m.next := by
  unfold ready traced
  split <;> exact ⟨rfl, rfl, rfl, rfl⟩

@[simp] theorem program_ready (m : Machine) : m.ready.program = m.program := m.ready_eq.1

@[simp] theorem pc_ready (m : Machine) : m.ready.pc = m.pc + 1 := m.ready_eq.2.1

@[simp] theorem current_ready (m : Machine) : m.ready.current = m.pc := m.ready_eq.2.2.1

@[simp] theorem quad_ready (m : Machine) : m.ready.quad = m.next := m.ready_eq.2.2.2

end Machine

namespace Exec

theorem fetch_eq (m : Machine) :
    fetch m = if m.OverLimit then fault .stepLimit m.fetched else .ok m.next m.ready := by
  change (if m.OverLimit then fault .stepLimit else _ : Exec Quad) m.fetched = _
  split
  · rfl
  · obtain ⟨_, _, _, _, _, _, _, _, _, _, tracing, _⟩ := m
    cases tracing <;> rfl

theorem step_of_overLimit {m : Machine} (limit : m.OverLimit) :
    step m = fault .stepLimit m.fetched := by
  change EStateM.bind fetch execute m = _
  unfold EStateM.bind
  rw [fetch_eq, if_pos limit]
  exact congrFun (fault_bind .stepLimit execute) m.fetched

theorem step_eq {m : Machine} (within : ¬ m.OverLimit) :
    step m = (perform (m.next.action m.program.symbols) >>= act) m.ready := by
  change EStateM.bind fetch execute m = _
  unfold EStateM.bind
  rw [fetch_eq, if_neg within]
  exact (execute_eq m.next m.ready).trans (by rw [m.program_ready])

end Exec

/-! ## What a quad can do -/

/-- Whether an action puts a value into a cell. -/
def Action.stores : Action → Bool
  | write _ | read _ => true
  | _ => false

namespace Outcome

variable {α β : Type} {x : Outcome α} {f : α → Outcome β}

theorem bind_eq_ok {b : β} : x >>= f = .ok b ↔ ∃ a, x = .ok a ∧ f a = .ok b := by
  cases x with
  | error =>
    constructor
    · intro does
      cases does
    · rintro ⟨a, absurd, _⟩
      cases absurd
  | ok a =>
    constructor
    · intro does
      exact ⟨a, rfl, does⟩
    · rintro ⟨_, same, does⟩
      cases same
      exact does

theorem bind_eq_error {trouble : Trouble} :
    x >>= f = .error trouble ↔ x = .error trouble ∨ ∃ a, x = .ok a ∧ f a = .error trouble := by
  cases x with
  | error other =>
    constructor
    · intro fails
      cases fails
      exact .inl rfl
    · rintro (same | ⟨a, absurd, _⟩)
      · cases same
        rfl
      · cases absurd
  | ok a =>
    constructor
    · intro fails
      exact .inr ⟨a, rfl, fails⟩
    · rintro (absurd | ⟨_, same, fails⟩)
      · cases absurd
      · cases same
        exact fails

theorem ofAccess_eq_error {access : Except AccessError α} {trouble : Trouble} :
    ofAccess access = .error trouble ↔ ∃ error, access = .error error ∧ trouble = .crash error := by
  cases access with
  | ok => simp [ofAccess]
  | error error => simp [ofAccess, eq_comm]

theorem ofAccess_eq_ok {access : Except AccessError α} {a : α} :
    ofAccess access = .ok a ↔ access = .ok a := by
  cases access <;> simp [ofAccess]

theorem ofResult_eq_ok {result : Except Failure α} {a : α} :
    ofResult result = .ok a ↔ result = .ok a := by
  cases result <;> simp [ofResult]

end Outcome

namespace Quad

/-- All that a quad can do with a memory. -/
inductive Does (q : Quad) (symbols : SymbolTable) : Action → Prop
  | arithmetic {x y value : Value} {after : SymbolTable} (is : q.op.isArithmetic = true)
      (left : symbols.value q.a = .ok x) (right : symbols.value q.b = .ok y)
      (computes : compute q.op x y = .ok value) (stores : symbols.stored q.c value = .ok after) :
      Does q symbols (.write after)
  | mov {value : Value} {after : SymbolTable} (is : q.op = .mov)
      (source : symbols.value q.a = .ok value) (stores : symbols.stored q.c value = .ok after) :
      Does q symbols (.write after)
  | print {value : Value} (is : q.op = .print) (source : symbols.value q.c = .ok value) :
      Does q symbols (.print value)
  | read (is : q.op = .read) : Does q symbols (.read q.c)
  | jump (is : q.op = .jmp) : Does q symbols (.goto q.c)
  | taken {x : Value} {sign : Int} (is : q.op.isConditional = true)
      (tested : symbols.value q.a = .ok x) (signed : x.sign = .ok sign)
      (taken : q.op.taken sign = true) : Does q symbols (.goto q.c)
  | skipped {x : Value} {sign : Int} (is : q.op.isConditional = true)
      (tested : symbols.value q.a = .ok x) (signed : x.sign = .ok sign)
      (skipped : q.op.taken sign = false) : Does q symbols .next
  | through {n : Int64} (is : q.op = .jindr) (held : symbols.int q.c = .ok n) :
      Does q symbols (.goto n.toInt)
  | stop (is : q.op = .stop) : Does q symbols .stop

theorem does_of_action {q : Quad} {symbols : SymbolTable} {action : Action}
    (acts : q.action symbols = .ok action) : q.Does symbols action := by
  obtain ⟨op, a, b, c⟩ := q
  cases op with
  | stop =>
    cases acts
    exact .stop rfl
  | div | mul | sub | add =>
    obtain ⟨x, left, acts⟩ := bind_eq_ok.mp acts
    obtain ⟨y, right, acts⟩ := bind_eq_ok.mp acts
    obtain ⟨value, computes, acts⟩ := bind_eq_ok.mp acts
    obtain ⟨after, stores, acts⟩ := bind_eq_ok.mp acts
    cases acts
    exact .arithmetic rfl (ofAccess_eq_ok.mp left) (ofAccess_eq_ok.mp right) computes stores
  | mov =>
    obtain ⟨value, source, acts⟩ := bind_eq_ok.mp acts
    obtain ⟨after, stores, acts⟩ := bind_eq_ok.mp acts
    cases acts
    exact .mov rfl (ofAccess_eq_ok.mp source) stores
  | print =>
    obtain ⟨value, source, acts⟩ := bind_eq_ok.mp acts
    cases acts
    exact .print rfl (ofAccess_eq_ok.mp source)
  | read =>
    cases acts
    exact .read rfl
  | jmp =>
    cases acts
    exact .jump rfl
  | jz | jp | jn | jnz | jnp | jnn =>
    obtain ⟨x, tested, acts⟩ := bind_eq_ok.mp acts
    obtain ⟨sign, signed, acts⟩ := bind_eq_ok.mp acts
    have tested := ofAccess_eq_ok.mp tested
    have signed := ofAccess_eq_ok.mp signed
    change Except.ok (if _ then _ else _) = _ at acts
    split at acts
    · rename_i taken
      cases acts
      exact .taken rfl tested signed taken
    · rename_i skipped
      cases acts
      exact .skipped rfl tested signed (Bool.not_eq_true _ ▸ skipped)
  | jindr =>
    obtain ⟨n, held, acts⟩ := bind_eq_ok.mp acts
    cases acts
    exact .through rfl (ofAccess_eq_ok.mp held)
  | invalid => cases acts

/-- All that can keep a quad from being executed. -/
inductive Stuck (q : Quad) (symbols : SymbolTable) : Trouble → Prop
  | left {error : AccessError} (is : q.op.isArithmetic = true)
      (missing : symbols.value q.a = .error error) : Stuck q symbols (.crash error)
  | right {error : AccessError} (is : q.op.isArithmetic = true)
      (missing : symbols.value q.b = .error error) : Stuck q symbols (.crash error)
  | uncomputed {x y : Value} {trouble : Trouble} (is : q.op.isArithmetic = true)
      (left : symbols.value q.a = .ok x) (right : symbols.value q.b = .ok y)
      (fails : compute q.op x y = .error trouble) : Stuck q symbols trouble
  | unstored {x y value : Value} {trouble : Trouble} (is : q.op.isArithmetic = true)
      (left : symbols.value q.a = .ok x) (right : symbols.value q.b = .ok y)
      (computes : compute q.op x y = .ok value) (fails : symbols.stored q.c value = .error trouble) :
      Stuck q symbols trouble
  | source {error : AccessError} (is : q.op = .mov) (missing : symbols.value q.a = .error error) :
      Stuck q symbols (.crash error)
  | unmoved {value : Value} {trouble : Trouble} (is : q.op = .mov)
      (source : symbols.value q.a = .ok value) (fails : symbols.stored q.c value = .error trouble) :
      Stuck q symbols trouble
  | unprinted {error : AccessError} (is : q.op = .print) (missing : symbols.value q.c = .error error) :
      Stuck q symbols (.crash error)
  | untested {error : AccessError} (is : q.op.isConditional = true)
      (missing : symbols.value q.a = .error error) : Stuck q symbols (.crash error)
  | unsigned {x : Value} {error : AccessError} (is : q.op.isConditional = true)
      (tested : symbols.value q.a = .ok x) (fails : x.sign = .error error) :
      Stuck q symbols (.crash error)
  | unheld {error : AccessError} (is : q.op = .jindr) (missing : symbols.int q.c = .error error) :
      Stuck q symbols (.crash error)
  | invalid {code : Int} (is : q.op = .invalid code) :
      Stuck q symbols (.fault (.badOpcode (.invalid code)))

theorem stuck_of_action {q : Quad} {symbols : SymbolTable} {trouble : Trouble}
    (fails : q.action symbols = .error trouble) : q.Stuck symbols trouble := by
  obtain ⟨op, a, b, c⟩ := q
  cases op with
  | stop | read | jmp => cases fails
  | div | mul | sub | add =>
    obtain missing | ⟨x, left, fails⟩ := bind_eq_error.mp fails
    · obtain ⟨error, access, rfl⟩ := ofAccess_eq_error.mp missing
      exact .left rfl access
    obtain missing | ⟨y, right, fails⟩ := bind_eq_error.mp fails
    · obtain ⟨error, access, rfl⟩ := ofAccess_eq_error.mp missing
      exact .right rfl access
    have left := ofAccess_eq_ok.mp left
    have right := ofAccess_eq_ok.mp right
    obtain fails | ⟨value, computes, fails⟩ := bind_eq_error.mp fails
    · exact .uncomputed rfl left right fails
    obtain fails | ⟨after, _, fails⟩ := bind_eq_error.mp fails
    · exact .unstored rfl left right computes fails
    · cases fails
  | mov =>
    obtain missing | ⟨value, source, fails⟩ := bind_eq_error.mp fails
    · obtain ⟨error, access, rfl⟩ := ofAccess_eq_error.mp missing
      exact .source rfl access
    obtain fails | ⟨after, _, fails⟩ := bind_eq_error.mp fails
    · exact .unmoved rfl (ofAccess_eq_ok.mp source) fails
    · cases fails
  | print =>
    obtain missing | ⟨value, _, fails⟩ := bind_eq_error.mp fails
    · obtain ⟨error, access, rfl⟩ := ofAccess_eq_error.mp missing
      exact .unprinted rfl access
    · cases fails
  | jz | jp | jn | jnz | jnp | jnn =>
    obtain missing | ⟨x, tested, fails⟩ := bind_eq_error.mp fails
    · obtain ⟨error, access, rfl⟩ := ofAccess_eq_error.mp missing
      exact .untested rfl access
    obtain fails | ⟨sign, _, fails⟩ := bind_eq_error.mp fails
    · obtain ⟨error, access, rfl⟩ := ofAccess_eq_error.mp fails
      exact .unsigned rfl (ofAccess_eq_ok.mp tested) access
    · cases fails
  | jindr =>
    obtain missing | ⟨n, _, fails⟩ := bind_eq_error.mp fails
    · obtain ⟨error, access, rfl⟩ := ofAccess_eq_error.mp missing
      exact .unheld rfl access
    · cases fails
  | invalid code =>
    cases fails
    exact .invalid rfl

/-- An action puts a value into a cell if the operation of its quad does. -/
theorem Does.stores {q : Quad} {symbols : SymbolTable} {action : Action} (does : q.Does symbols action) :
    q.op.stores = action.stores := by
  have conditional (is : q.op.isConditional = true) : q.op.stores = false := by
    cases op : q.op <;> simp_all [Opcode.isConditional, Opcode.stores, Opcode.isArithmetic]
  cases does with
  | arithmetic is => simp [Opcode.stores, is, Action.stores]
  | taken is | skipped is => exact conditional is
  | mov is | print is | read is | jump is | through is | stop is =>
    rw [is]
    rfl

theorem action_of_arithmetic {q : Quad} {symbols : SymbolTable}
    (is : q.op.isArithmetic = true) :
    q.action symbols = (ofAccess (symbols.value q.a) >>= fun x =>
      ofAccess (symbols.value q.b) >>= fun y => MiniPascal.compute q.op x y >>= fun value =>
        symbols.stored q.c value >>= fun after => .ok (.write after)) := by
  unfold action
  cases op : q.op with
  | div | mul | sub | add => rfl
  | _ =>
    rw [op] at is
    cases is

theorem action_of_mov {q : Quad} {symbols : SymbolTable} (is : q.op = .mov) :
    q.action symbols = (ofAccess (symbols.value q.a) >>= fun value =>
      symbols.stored q.c value >>= fun after => .ok (.write after)) := by
  unfold action
  rw [is]
  rfl

theorem action_of_conditional {q : Quad} {symbols : SymbolTable} (is : q.op.isConditional = true) :
    q.action symbols = (ofAccess (symbols.value q.a) >>= fun x => ofAccess x.sign >>= fun sign =>
      .ok (if q.op.taken sign then .goto q.c else .next)) := by
  unfold action
  cases op : q.op with
  | jz | jp | jn | jnz | jnp | jnn => rfl
  | _ =>
    rw [op] at is
    cases is

end Quad

end MiniPascal
