import MiniPascal.Proofs.Compiler.Cells
import MiniPascal.Proofs.Machine.Typing
import MiniPascal.Proofs.WellFormedCode

/-! # Compiled programs fault only for declared reasons

The compiler chooses the kind of a temporary by the kinds of the operands, and no kind changes after
that, so the code of a program is typed. A run of it is therefore broken off by nothing but a fault of
arithmetic, the limit on steps, or a quad that is ill-typed. Without variables for texts and without
texts assigned, there is no such quad.
-/

namespace MiniPascal

open Syntax

/-! ## The kinds of temporaries -/

namespace SymbolTable

variable {table : SymbolTable} {n i : Nat}

theorem kind_of_kindAt {kind : Kind} (here : table.kindAt i = some kind) :
    table.kind i = .ok kind := by
  obtain ⟨cell, stored, rfl⟩ := Option.map_eq_some_iff.mp here
  exact kind_of_cell stored

theorem Result.kind {a b : Nat} (made : table.Result n a b i) : ∃ left right,
    table.kind a = .ok left ∧ table.kind b = .ok right ∧
      table.kind i = .ok (arithmeticKind left right) := by
  obtain ⟨left, right, first, second, temporary⟩ := made.kinds
  have kind := kind_of_cell temporary.cell
  rw [Value.kind_zero (arithmeticKind_numeric left right)] at kind
  exact ⟨left, right, kind_of_kindAt first, kind_of_kindAt second, kind⟩

theorem Result.numeric {a b : Nat} (made : table.Result n a b i) : table.Numeric i := by
  obtain ⟨left, right, _, _, kind⟩ := made.kind
  exact ⟨_, kind, arithmeticKind_numeric left right⟩

end SymbolTable

namespace Quad.Kinds

variable {table : SymbolTable} {q : Quad}

theorem of_plain (calculates : q.op.isArithmetic = false) (tests : q.op.isConditional = false) :
    q.Kinds table := by
  constructor
  · intro is
    rw [tests] at is
    cases is
  · intro is
    rw [calculates] at is
    cases is
  · intro is
    rw [calculates] at is
    cases is

theorem of_conditional (tests : q.op.isConditional = true) (tested : table.Numeric q.a) :
    q.Kinds table := by
  have calculates : q.op.isArithmetic = false := by
    cases op : q.op <;> simp_all [Opcode.isConditional, Opcode.isArithmetic]
  constructor
  · exact fun _ => tested
  · intro is
    rw [calculates] at is
    cases is
  · intro is
    rw [calculates] at is
    cases is

/-- An operation whose result goes into a temporary made for it. -/
theorem of_result {op : Opcode} {n a b c : Nat} (is : op.isArithmetic = true)
    (made : table.Result n a b c) : Kinds table ⟨op, a, b, c⟩ := by
  constructor
  · intro tests
    cases op <;> simp_all [Opcode.isConditional, Opcode.isArithmetic]
  · exact fun _ _ => made.numeric
  · exact fun _ _ => made.kind

end Quad.Kinds

namespace Syntax

variable {table : SymbolTable} {tokens : List Token}

theorem Operator.isArithmetic_opcode (op : Operator) : op.opcode.isArithmetic = true := by
  cases op <;> rfl

theorem Comparison.isConditional_falseJump (comparison : Comparison) :
    comparison.falseJump.isConditional = true := by
  cases comparison <;> rfl

theorem Expr.Laid.kinds {e : Expr} {lo hi i : Nat} {code : List Quad}
    (laid : e.Laid table lo hi code i) : ∀ q ∈ code, q.Kinds table := by
  induction laid with
  | literal | var =>
    intro q member
    cases member
  | negated _ _ made ih =>
    rw [List.forall_mem_append, List.forall_mem_singleton]
    exact ⟨ih, .of_result rfl made⟩
  | @operation op _ _ _ _ _ _ _ _ _ _ _ _ made ihLeft ihRight =>
    rw [List.forall_mem_append, List.forall_mem_append, List.forall_mem_singleton]
    exact ⟨ihLeft, ihRight, .of_result op.isArithmetic_opcode made⟩

/-- The cell that tells how a relation was decided. -/
theorem Expr.Laid.numeric_difference {r : Relation} {lo hi i : Nat} {code : List Quad}
    (laid : r.difference.Laid table lo hi code i) : table.Numeric i := by
  cases laid with
  | operation _ _ made => exact made.numeric

theorem kinds_of_span {down : Bool} {n counter bound distance : Nat}
    (made : table.Result n bound counter distance) :
    Quad.Kinds table ⟨.sub, (span down counter bound).1, (span down counter bound).2, distance⟩ := by
  cases down with
  | false => exact .of_result rfl made
  | true =>
    refine .of_result (n := n) rfl ⟨?_⟩
    obtain ⟨left, right, first, second, temporary⟩ := made.kinds
    exact ⟨right, left, second, first, arithmeticKind_comm left right ▸ temporary⟩

/-- A counter is a variable and no temporary, so its kind may be any. -/
theorem kinds_of_counter {name : Text} {counter step : Nat} (wf : table.WellFormed)
    (plain : ∀ n, ¬ name.SameName (Rule.temporaryName n)) (found : table.lookup? name = some counter) :
    Quad.Kinds table ⟨.add, counter, step, counter⟩ := by
  constructor
  · nofun
  · exact fun _ numeric => numeric
  · rintro _ ⟨n, named⟩
    obtain ⟨cell, stored, same⟩ := (wf.lookup_iff name counter).mp found
    change table.name (counter : Int) = _ at named
    rw [SymbolTable.name_of_cell stored] at named
    rw [Except.ok.inj named] at same
    exact absurd same.symm (plain n)

theorem Stmt.Laid.kinds {s : Stmt} {lo hi base : Nat} {code : List Quad}
    (laid : s.Laid table lo hi base code) (wf : table.WellFormed)
    (plain : ∀ name, Among tokens .identifier name → ∀ n, ¬ name.SameName (Rule.temporaryName n))
    (drawn : s.DrawnFrom tokens) : ∀ q ∈ code, q.Kinds table := by
  have tests {r : Relation} {lo hi i : Nat} {code : List Quad} {c : Int}
      (test : r.difference.Laid table lo hi code i) :
      Quad.Kinds table ⟨r.comparison.falseJump, i, 0, c⟩ :=
    .of_conditional r.comparison.isConditional_falseJump test.numeric_difference
  induction laid with
  | empty =>
    intro q member
    cases member
  | sequence _ _ ih ih' => exact List.forall_mem_append.mpr (drawn.imp ih ih')
  | assignment _ source =>
    rw [List.forall_mem_append, List.forall_mem_singleton]
    exact ⟨source.kinds, .of_plain rfl rfl⟩
  | ifThen test _ ih =>
    rw [List.forall_mem_append, List.forall_mem_cons]
    exact ⟨test.kinds, tests test, ih drawn.2⟩
  | ifElse test _ _ ih ih' =>
    simp only [List.forall_mem_append, List.forall_mem_cons]
    exact ⟨test.kinds, tests test, ih drawn.2.1, .of_plain rfl rfl, ih' drawn.2.2⟩
  | whileLoop test _ ih =>
    rw [List.forall_mem_append, List.forall_mem_cons, List.forall_mem_append, List.forall_mem_singleton]
    exact ⟨test.kinds, tests test, ih drawn.2, .of_plain rfl rfl⟩
  | repeatLoop _ test ih =>
    rw [List.forall_mem_append, List.forall_mem_append, List.forall_mem_singleton]
    exact ⟨ih drawn.1, test.kinds, tests test⟩
  | forLoop found starts upTo _ _ _ made _ ih =>
    simp only [List.forall_mem_append, List.forall_mem_cons, List.not_mem_nil, false_imp_iff,
      implies_true, and_true]
    exact ⟨starts.kinds, upTo.kinds, ⟨.of_plain rfl rfl, .of_plain rfl rfl, kinds_of_span made,
      .of_conditional rfl made.numeric⟩, ih drawn.2.2.2,
      kinds_of_counter wf (plain _ drawn.1) found, kinds_of_span made,
      .of_conditional rfl made.numeric⟩
  | writeln value =>
    rw [List.forall_mem_append, List.forall_mem_singleton]
    exact ⟨value.kinds, .of_plain rfl rfl⟩
  | readln =>
    rw [List.forall_mem_singleton]
    exact .of_plain rfl rfl

/-! ## Code without texts -/

/-- Variables, numbers and the compiler's own units are all in cells for numbers. -/
structure AllNumeric (table : SymbolTable) (tokens : List Token) : Prop where
  words : ∀ {name i}, Among tokens .identifier name → table.lookup? name = some i → table.Numeric i
  numbers : ∀ {name i}, Among tokens .integerLiteral name ∨ Among tokens .realLiteral name →
    table.lookup? name = some i → table.Numeric i
  units : ∀ {n : Int64} {i}, n = 1 ∨ n = -1 → table.lookup? (.ofInt n.toInt) = some i →
    table.Numeric i

/-- An expression that is a text literal under the usual quote character. -/
def Expr.IsText : Expr → Prop
  | literal name => name.chars.head? = some usualQuote
  | _ => False

/-- Some text literal is assigned to a variable. -/
def Stmt.AssignsText : Stmt → Prop
  | assignment _ source => source.IsText
  | sequence first second => first.AssignsText ∨ second.AssignsText
  | ifThen _ body | whileLoop _ body | repeatLoop body _ | forLoop _ _ _ _ body => body.AssignsText
  | ifElse _ body other => body.AssignsText ∨ other.AssignsText
  | empty | writeln _ | readln _ => False

end Syntax

namespace Quad

variable {table : SymbolTable} {q : Quad}

theorem not_illTyped_of_numeric (is : q.op.isArithmetic = true ∨ q.op = .mov)
    (left : table.Numeric q.a) (right : q.op.isArithmetic = true → table.Numeric q.b)
    (target : q.op = .mov → table.Numeric q.c) : ¬ q.IllTyped table := by
  intro ill
  cases ill with
  | left _ text => exact left.not_text text
  | right is text => exact (right is).not_text text
  | fromText _ text => exact left.not_text text
  | toText is _ text => exact (target is).not_text text
  | read reads =>
    rw [reads] at is
    obtain absurd | absurd := is
    · cases absurd
    · cases absurd

theorem not_illTyped_of_other (calculates : q.op.isArithmetic = false) (moves : q.op ≠ .mov)
    (reads : q.op = .read → table.Numeric q.c) : ¬ q.IllTyped table := by
  intro ill
  cases ill with
  | left is | right is =>
    rw [calculates] at is
    cases is
  | fromText is | toText is => exact moves is
  | read is text => exact (reads is).not_text text

end Quad

namespace Syntax

variable {table : SymbolTable} {tokens : List Token}

theorem Expr.Laid.numeric {e : Expr} {lo hi i : Nat} {code : List Quad}
    (laid : e.Laid table lo hi code i) (all : AllNumeric table tokens) (drawn : e.DrawnFrom tokens) :
    table.Numeric i ∧ ∀ q ∈ code, ¬ q.IllTyped table := by
  have calculates (op : Operator) {i j k : Nat} (left : table.Numeric i) (right : table.Numeric j) :
      ¬ Quad.IllTyped table ⟨op.opcode, i, j, k⟩ := by
    refine Quad.not_illTyped_of_numeric (.inl op.isArithmetic_opcode) left (fun _ => right) ?_
    cases op <;> nofun
  induction laid with
  | literal found => exact ⟨all.numbers drawn found, fun _ member => absurd member List.not_mem_nil⟩
  | var found => exact ⟨all.words drawn found, fun _ member => absurd member List.not_mem_nil⟩
  | negated _ minusOne made ih =>
    obtain ⟨numeric, typed⟩ := ih drawn
    rw [List.forall_mem_append, List.forall_mem_singleton]
    exact ⟨made.numeric, typed, calculates .mul numeric (all.units (n := -1) (.inr rfl) minusOne)⟩
  | operation _ _ made ihLeft ihRight =>
    obtain ⟨left, typed⟩ := ihLeft drawn.1
    obtain ⟨right, typed'⟩ := ihRight drawn.2
    rw [List.forall_mem_append, List.forall_mem_append, List.forall_mem_singleton]
    exact ⟨made.numeric, typed, typed', calculates _ left right⟩

theorem Stmt.Laid.typed {s : Stmt} {lo hi base : Nat} {code : List Quad}
    (laid : s.Laid table lo hi base code) (all : AllNumeric table tokens)
    (texts : ∀ name, Among tokens .textLiteral name → (Expr.literal name).IsText)
    (drawn : s.DrawnFrom tokens) (quiet : ¬ s.AssignsText) : ∀ q ∈ code, ¬ q.IllTyped table := by
  have moves {i j : Nat} (source : table.Numeric i) (target : table.Numeric j) :
      ¬ Quad.IllTyped table ⟨.mov, i, 0, j⟩ :=
    Quad.not_illTyped_of_numeric (.inr rfl) source nofun (fun _ => target)
  have calculates {op : Opcode} (is : op.isArithmetic = true) {i j k : Nat} (left : table.Numeric i)
      (right : table.Numeric j) : ¬ Quad.IllTyped table ⟨op, i, j, k⟩ := by
    refine Quad.not_illTyped_of_numeric (.inl is) left (fun _ => right) ?_
    rintro rfl
    cases is
  have tests (comparison : Comparison) {i : Nat} {c : Int} :
      ¬ Quad.IllTyped table ⟨comparison.falseJump, i, 0, c⟩ := by
    cases comparison <;> exact Quad.not_illTyped_of_other rfl nofun nofun
  have other {op : Opcode} (is : op = .jmp ∨ op = .jn ∨ op = .jnn ∨ op = .print) {i c : Int} :
      ¬ Quad.IllTyped table ⟨op, i, 0, c⟩ := by
    obtain rfl | rfl | rfl | rfl := is <;> exact Quad.not_illTyped_of_other rfl nofun nofun
  induction laid with
  | empty =>
    intro q member
    cases member
  | sequence _ _ ih ih' =>
    rw [Stmt.AssignsText, not_or] at quiet
    exact List.forall_mem_append.mpr ⟨ih drawn.1 quiet.1, ih' drawn.2 quiet.2⟩
  | assignment found source =>
    obtain drawnSource | ⟨name, rfl, among⟩ := drawn.2
    · obtain ⟨numeric, typed⟩ := source.numeric all drawnSource
      rw [List.forall_mem_append, List.forall_mem_singleton]
      exact ⟨typed, moves numeric (all.words drawn.1 found)⟩
    · exact absurd (texts name among) quiet
  | ifThen test _ ih =>
    rw [List.forall_mem_append, List.forall_mem_cons]
    exact ⟨(test.numeric all drawn.1).2, tests _, ih drawn.2 quiet⟩
  | ifElse test _ _ ih ih' =>
    rw [Stmt.AssignsText, not_or] at quiet
    simp only [List.forall_mem_append, List.forall_mem_cons]
    exact ⟨(test.numeric all drawn.1).2, tests _, ih drawn.2.1 quiet.1, other (.inl rfl),
      ih' drawn.2.2 quiet.2⟩
  | whileLoop test _ ih =>
    rw [List.forall_mem_append, List.forall_mem_cons, List.forall_mem_append, List.forall_mem_singleton]
    exact ⟨(test.numeric all drawn.1).2, tests _, ih drawn.2 quiet, other (.inl rfl)⟩
  | repeatLoop _ test ih =>
    rw [List.forall_mem_append, List.forall_mem_append, List.forall_mem_singleton]
    exact ⟨ih drawn.1 quiet, (test.numeric all drawn.2).2, tests _⟩
  | @forLoop _ _ _ down _ _ _ _ _ _ counter start limit step bound distance kind _ _ _ found starts upTo
      steps kindAt copied made _ ih =>
    obtain ⟨isCounter, drawnStart, drawnLimit, drawnBody⟩ := drawn
    obtain ⟨fromStart, typedStart⟩ := starts.numeric all drawnStart
    obtain ⟨toLimit, typedLimit⟩ := upTo.numeric all drawnLimit
    have counts := all.words isCounter found
    have bounds : table.Numeric bound := by
      obtain ⟨other, here, numeric⟩ := toLimit
      rw [SymbolTable.kind_of_kindAt kindAt] at here
      cases here
      have kind := SymbolTable.kind_of_cell copied.cell
      rw [Value.kind_zero numeric] at kind
      exact ⟨_, kind, numeric⟩
    have spans : ¬ Quad.IllTyped table
        ⟨.sub, (span down counter bound).1, (span down counter bound).2, distance⟩ := by
      cases down with
      | false => exact calculates rfl bounds counts
      | true => exact calculates rfl counts bounds
    have unit : table.Numeric step := by
      cases down with
      | false => exact all.units (n := 1) (.inl rfl) steps
      | true => exact all.units (n := -1) (.inr rfl) steps
    simp only [List.forall_mem_append, List.forall_mem_cons, List.not_mem_nil, false_imp_iff,
      implies_true, and_true]
    exact ⟨typedStart, typedLimit, ⟨moves fromStart counts, moves toLimit bounds, spans,
      other (.inr (.inl rfl))⟩, ih drawnBody quiet, calculates rfl counts unit, spans,
      other (.inr (.inr (.inl rfl)))⟩
  | @writeln e _ _ _ _ _ value =>
    rw [List.forall_mem_append, List.forall_mem_singleton]
    refine ⟨?_, other (.inr (.inr (.inr rfl)))⟩
    obtain drawnValue | ⟨name, rfl, _⟩ := drawn
    · exact (value.numeric all drawnValue).2
    · cases value
      intro q member
      cases member
  | readln found =>
    rw [List.forall_mem_singleton]
    exact Quad.not_illTyped_of_other rfl nofun (fun _ => all.words drawn found)

end Syntax

/-! ## Runs of typed code -/

namespace Machine

/-- A machine for a program, after any number of runs. -/
inductive History (program : Program) : Machine → Prop
  | new (devices : Devices) (options : List MachineOption) :
      History program (.new program devices options)
  | run {m : Machine} (before : History program m) (context : Context) (fuel : Nat) :
      History program (m.run context fuel).2
  | close {m : Machine} (before : History program m) : History program m.close.2

/-- Why a run of typed code fails at the quad it executes last: a fault of arithmetic, the limit on
steps, an access with the wrong kind at an ill-typed quad, a failure of a device or of the source of
integers, or an interruption. -/
inductive FailsFor (table : SymbolTable) (interruption : Option Failure) (last : Machine) :
    Failure → Prop
  | arithmetic {cause : Failure} (numerical : cause.Numerical) :
      FailsFor table interruption last (.fault last.pc last.next cause)
  | limit (reached : last.OverLimit) :
      FailsFor table interruption last (.fault last.pc last.next .stepLimit)
  | kind {index : Int} {held wanted : Kind} (illTyped : last.next.IllTyped table) :
      FailsFor table interruption last
        (.fault last.pc last.next (.brokeOff "VM" (.access (.wrongKind index held wanted))))
  | reported {failure : Failure} (reports : last.Reports failure) :
      FailsFor table interruption last failure
  | interrupted {failure : Failure} (called : interruption = some failure) :
      FailsFor table interruption last failure

/-- The ways in which typed code halts. -/
inductive HaltsFor (table : SymbolTable) (last : Machine) : Halt → Prop
  | stop (is : last.next.op = .stop) : HaltsFor table last (.stopped last.ready.console.flush.1)
  | arithmetic {cause : Failure} (numerical : cause.Numerical) :
      HaltsFor table last (.stopped (some (.fault last.pc last.next cause)))
  | limit (reached : last.OverLimit) :
      HaltsFor table last (.stopped (some (.fault last.pc last.next .stepLimit)))
  | kind {index : Int} {held wanted : Kind} (illTyped : last.next.IllTyped table) :
      HaltsFor table last (.crashed (.wrongKind index held wanted))
  | reported {failure : Failure} (reports : last.Reports failure) :
      HaltsFor table last (.stopped (some failure))

variable {table : SymbolTable} {m last after : Machine} {halt : Halt}

theorem haltsFor_of_trouble {stuck : Machine} {trouble : Trouble} (pc : stuck.current = last.pc)
    (quad : stuck.quad = last.next)
    (reason : (∃ cause, trouble = .fault cause ∧ cause.Numerical) ∨
      (∃ index held wanted, trouble = .crash (.wrongKind index held wanted)) ∧
        last.next.IllTyped table) : last.HaltsFor table (stuck.ending trouble).1 := by
  obtain ⟨cause, rfl, numerical⟩ | ⟨⟨index, held, wanted, rfl⟩, ill⟩ := reason
  · have same : stuck.faultBy cause = .fault last.pc last.next cause := by rw [faultBy, pc, quad]
    rw [ending, same]
    exact .arithmetic numerical
  · exact .kind ill

/-- A typed quad makes the machine halt for a reason of its own or of its surroundings. -/
theorem Halts.haltsFor (halts : last.Halts halt after) (typed : last.next.Typed table)
    (alike : table.Alike last.program.symbols) : last.HaltsFor table halt := by
  cases halts with
  | limit reached => exact .limit reached
  | stop within does =>
    cases Quad.does_of_action does with
    | stop is => exact .stop is
  | trouble within does =>
    exact haltsFor_of_trouble last.current_ready last.quad_ready
      (typed.stuck alike (Quad.stuck_of_action does))
  | badJump within does bad =>
    obtain ⟨jump, rfl⟩ | through := Quad.jump_of_goto (Quad.does_of_action does)
    · exact absurd (typed.jumps jump) (Int.not_le.mpr bad)
    · exact absurd through typed.direct
  | unshown within does fails => exact .reported (.inl ⟨_, fails⟩)
  | unflushed within does fails => exact .reported (.inr (.inl fails))
  | unanswered within does clear named fails => exact .reported (.inr (.inr ⟨_, fails⟩))
  | unnamed within does clear missing =>
    cases Quad.does_of_action does with
    | read is =>
      obtain ⟨n, cell, same, here, _⟩ := alike.operand (typed.wellFormed.only (.inr is))
      rw [same, SymbolTable.name_of_cell here] at missing
      cases missing
  | @unstored _ name _ _ within does clear named answers fails =>
    cases Quad.does_of_action does with
    | read is =>
      have same := last.sameState_answered name
      exact haltsFor_of_trouble (same.current.trans last.current_ready)
        (same.quad.trans last.quad_ready) (typed.unread alike is fails)

/-- A machine with the quads of a program and a memory of the program's shape. -/
def Executes (m : Machine) (program : Program) : Prop :=
  m.program.quads = program.quads ∧ program.symbols.Alike m.program.symbols

variable {program : Program} {interruption : Option Failure}

theorem Executes.reaches (executes : m.Executes program) (reaches : m.Reaches last) :
    last.Executes program := by
  obtain ⟨quads, alike⟩ := Reaches.program reaches
  exact ⟨quads.trans executes.1, executes.2.trans alike⟩

theorem program_configure (m : Machine) (option : MachineOption) :
    (m.configure option).program = m.program := by
  cases option <;> rfl

theorem program_new (program : Program) (devices : Devices) (options : List MachineOption) :
    (Machine.new program devices options).program = program := by
  unfold Machine.new
  generalize MachineOption.flattenAll options = choices
  have all : ∀ m : Machine, (choices.foldl configure m).program = m.program := by
    induction choices with
    | nil => exact fun _ => rfl
    | cons option rest ih => exact fun m => (ih _).trans (m.program_configure option)
  exact all _

theorem program_close (m : Machine) : m.close.2.program = m.program := by
  unfold Machine.close
  split <;> rfl

/-- What steps keep of a program and its memory is kept by any number of runs. -/
theorem History.keeps {P : Program → Prop} (history : History program m)
    (step : ∀ m after : Machine, m.Steps after → P m.program → P after.program) (start : P program) :
    P m.program := by
  induction history with
  | new devices options =>
    rw [program_new]
    exact start
  | run _ context fuel ih => exact run_keeps step ih context fuel
  | close _ ih =>
    rw [program_close]
    exact ih

theorem History.executes (history : History program m) : m.Executes program :=
  history.keeps (P := fun now => now.quads = program.quads ∧ program.symbols.Alike now.symbols)
    (fun _ _ steps before =>
      ⟨steps.program.1.trans before.1, before.2.trans steps.program.2⟩) ⟨rfl, .refl _⟩

/-- A program whose quads are all typed and whose runs do not leave them. -/
structure Sound (program : Program) : Prop where
  typed : ∀ q ∈ program.quads.code, q.Typed program.symbols
  confined : Confined program.quads

/-- The state of a machine that runs a sound program. -/
theorem Sound.state (sound : Sound program) (executes : m.Executes program)
    (reaches : m.rewind.Reaches last) : last.Inside ∧ last.next.Typed program.symbols ∧
      program.symbols.Alike last.program.symbols := by
  have start : m.rewind.Executes program := executes
  have now := start.reaches reaches
  have inside : last.Inside := by
    refine Reaches.inside reaches (start.1 ▸ sound.confined) ?_
    obtain ⟨code, written, _⟩ := sound.confined
    change 0 < m.program.quads.size
    rw [executes.1, ← QuadTable.length_code, written, List.length_append]
    exact Nat.lt_of_lt_of_le Nat.zero_lt_one (Nat.le_add_left _ _)
  exact ⟨inside, sound.typed _ (now.1 ▸ List.mem_of_getElem? inside.code), now.2⟩

theorem HaltsFor.failsFor (reason : last.HaltsFor table halt) (halts : last.Halts halt after)
    {failure : Failure} (reported : after.runFailure? halt = some failure) :
    last.FailsFor table interruption failure := by
  cases reason with
  | stop => exact .reported (.inr (.inl (eq_of_runFailure reported)))
  | arithmetic numerical =>
    cases eq_of_runFailure reported
    exact .arithmetic numerical
  | limit reached =>
    cases eq_of_runFailure reported
    exact .limit reached
  | reported reports =>
    cases eq_of_runFailure reported
    exact .reported reports
  | kind illTyped =>
    have same := halts.sameState
    have current : after.current = last.pc := same.current
    have quad : after.quad = last.next := same.quad
    rw [runFailure?, current, quad] at reported
    cases reported
    exact .kind illTyped

/-- A run of a sound program fails for a declared reason. -/
theorem Sound.failsFor (sound : Sound program) (executes : m.Executes program) {context : Context}
    {fuel : Nat} {failure : Failure} (fails : (m.run context fuel).1 = .finished (some failure)) :
    ∃ n last, Goes context 0 n m.rewind last ∧ last.FailsFor program.symbols (context n) failure := by
  have comes := m.run_comes context fuel
  generalize m.run context fuel = result at comes fails
  cases comes with
  | outOfFuel | past => cases fails
  | @halted n last after halt goes ends =>
    have reported : after.runFailure? halt = some failure := RunEnd.finished.inj fails
    obtain ⟨inside, typed, alike⟩ := sound.state executes goes.reaches
    refine ⟨n, last, goes, ?_⟩
    cases ends with
    | halt _ halts => exact (halts.haltsFor typed alike).failsFor halts reported
    | interrupted _ _ called =>
      cases eq_of_runFailure reported
      exact .interrupted called
    | unflushed outside => exact absurd inside outside

/-- An ill-typed quad that calculates or moves breaks the run off. -/
theorem Sound.crashes (sound : Sound program) (executes : m.Executes program)
    (reaches : m.rewind.Reaches last) (within : ¬ last.OverLimit)
    (is : last.next.op.isArithmetic = true ∨ last.next.op = .mov)
    (ill : last.next.IllTyped program.symbols) :
    ∃ index held wanted, Exec.step last = .error (.crashed (.wrongKind index held wanted)) last.ready := by
  obtain ⟨_, typed, alike⟩ := sound.state executes reaches
  obtain ⟨index, held, wanted, crashes⟩ := ill.crashes typed.wellFormed alike is
  exact ⟨index, held, wanted, (Halts.trouble within crashes).eq⟩

end Machine

/-! ## Compiled programs -/

variable {options : CompileOptions} {input : Input} {p : Syntax.Program} {rest : List Token}

theorem compile_typed (accepted : (compile options input).verdict = .accepted) :
    Machine.Sound (compile options input).program := by
  refine ⟨fun q member => ?_, compile_confined accepted⟩
  have wellFormed := compile_sound q member
  obtain ⟨⟨p, rest, spelled⟩, builds⟩ := built_of_accepted accepted
  obtain ⟨t, built, _⟩ := builds p rest spelled
  obtain ⟨code, written, laid⟩ := built.code
  rw [built.tables] at member wellFormed ⊢
  have kinds : q.Kinds t.symbols ∧ q.op ≠ .jindr ∧ (q.op.isJump = true → 0 ≤ q.c) := by
    change q ∈ t.code at member
    rw [written] at member
    obtain member | last := List.mem_append.mp member
    · refine ⟨laid.kinds built.orderly.valid.symbols (fun _ among => not_temporary_of_among among rfl)
        built.spelled.drawn.body q member, (laid.stays q member).direct, fun jump => ?_⟩
      obtain ⟨target, same, _⟩ := (laid.stays q member).jumps jump
      omega
    · obtain rfl := List.mem_singleton.mp last
      exact ⟨.of_plain rfl rfl, nofun, nofun⟩
  exact ⟨kinds.1, wellFormed, kinds.2.1, kinds.2.2⟩

/-- Without variables for texts, every variable and every number is in a cell for numbers. -/
theorem Built.allNumeric {t : Session} (built : Built options input p rest t)
    (usual : options.quote = usualQuote) (numbers : ∀ entry ∈ p.declarations, entry.2 ≠ .text) :
    AllNumeric t.symbols (tokensOf (scanned options input)) := by
  have numeric {i : Nat} {cell : Cell} (stored : t.symbols.cells[i]? = some cell)
      (number : cell.value.kind ≠ .text) : t.symbols.Numeric i :=
    ⟨_, SymbolTable.kind_of_cell stored, cell.value.kind_cases.resolve_right number⟩
  constructor
  · intro name i among found
    obtain ⟨_, cell, _, stored, _, value⟩ := built.word usual (isWord_of_among among) found
    refine numeric stored ?_
    rw [value]
    cases declared : p.scope.kind? name with
    | none => nofun
    | some kind =>
      obtain ⟨entry, here, rfl⟩ := Option.map_eq_some_iff.mp declared
      have member := List.mem_reverse.mp (List.mem_of_find?_eq_some here)
      have other := numbers entry member
      change (Value.zero entry.2).kind ≠ .text
      cases kind : entry.2 with
      | text => exact absurd kind other
      | integer | real | other => nofun
  · intro name i among found
    obtain ⟨cell, stored, number, _⟩ := built.number usual among found
    exact numeric stored number
  · intro n i unit found
    obtain ⟨cell, stored, value⟩ := built.unit unit found
    exact numeric stored (by rw [value]; nofun)

/-- Under the usual quote character, text literals are told by their first character. -/
theorem isText_of_among {name : Text} (usual : options.quote = usualQuote)
    (among : Among (tokensOf (scanned options input)) .textLiteral name) :
    (Expr.literal name).IsText := by
  obtain ⟨found, _, proper, _, is, rfl⟩ := lexeme_of_among among rfl
  rw [usual] at proper
  cases proper with
  | identifier other | integer other | real other =>
    rw [is] at other
    cases other
  | plain other =>
    rw [is] at other
    cases other
  | text _ _ encloses =>
    change (Text.ofChars _).chars.head? = _
    rw [Text.chars_ofChars, encloses]
    rfl

theorem compile_without_texts (accepted : (compile options input).verdict = .accepted)
    (usual : options.quote = usualQuote)
    (spelled : p.Spelled True (tokensOf (scanned options input)) rest)
    (numbers : ∀ entry ∈ p.declarations, entry.2 ≠ .text) (quiet : ¬ p.body.AssignsText) :
    ∀ q ∈ (compile options input).program.quads.code,
      ¬ q.IllTyped (compile options input).program.symbols := by
  obtain ⟨t, built, _⟩ := (built_of_accepted accepted).2 p rest spelled
  obtain ⟨code, written, laid⟩ := built.code
  rw [built.tables]
  change ∀ q ∈ t.code, _
  rw [written, List.forall_mem_append, List.forall_mem_singleton]
  constructor
  · exact laid.typed (built.allNumeric usual numbers) (fun _ => isText_of_among usual)
      built.spelled.drawn.body quiet
  · exact Quad.not_illTyped_of_other rfl nofun nofun

/-- What can go wrong with the next step of a run, where `table` has the cells of the program. -/
structure Machine.Typed (table : SymbolTable) (last : Machine) : Prop where
  halts : ∀ halt after, Exec.step last = .error halt after → last.HaltsFor table halt
  illTyped : last.next.IllTyped table → last.next.op.isArithmetic = true ∨ last.next.op = .mov →
    ¬ last.OverLimit →
    ∃ index held wanted, Exec.step last = .error (.crashed (.wrongKind index held wanted)) last.ready
  /-- A temporary has the kind of what is computed into it. -/
  temporary : last.next.op.isArithmetic = true → table.IsTemporary last.next.c → ∀ x y value,
    last.program.symbols.value last.next.a = .ok x → last.program.symbols.value last.next.b = .ok y →
    compute last.next.op x y = .ok value → table.kind last.next.c = .ok value.kind

/-- A run of an accepted program fails by arithmetic, by the limit on steps, at an ill-typed quad, or by
its surroundings. Without texts in variables no access has the wrong kind. -/
theorem compiled_faults_are_declared (options : CompileOptions) (input : Input)
    (accepted : (compile options input).verdict = .accepted) :
    (∀ m, Machine.History (compile options input).program m →
      (∀ context fuel failure, (m.run context fuel).1 = .finished (some failure) →
        ∃ n last, Machine.Goes context 0 n m.rewind last ∧
          last.FailsFor (compile options input).program.symbols (context n) failure) ∧
      ∀ last, m.rewind.Reaches last → last.Typed (compile options input).program.symbols) ∧
    (options.quote = usualQuote → ∀ p rest,
      Syntax.Program.Spelled True p (tokensOf (scanned options input)) rest →
      (∀ entry ∈ p.declarations, entry.2 ≠ .text) → ¬ p.body.AssignsText →
        ∀ m, Machine.History (compile options input).program m → ∀ last, m.rewind.Reaches last →
          ∀ error after, Exec.step last ≠ .error (.crashed error) after) := by
  have sound := compile_typed accepted
  have halting {m last : Machine} (history : Machine.History (compile options input).program m)
      (reaches : m.rewind.Reaches last) {halt : Halt} {after : Machine}
      (halts : Exec.step last = .error halt after) :
      last.HaltsFor (compile options input).program.symbols halt := by
    obtain ⟨_, typed, alike⟩ := sound.state history.executes reaches
    exact Machine.Halts.haltsFor (Leads.error (Machine.step_leads last) halts) typed alike
  constructor
  · intro m history
    refine ⟨fun _ _ _ => sound.failsFor history.executes, fun last reaches => ⟨?_, ?_, ?_⟩⟩
    · exact fun halt after => halting history reaches
    · exact fun ill is within => sound.crashes history.executes reaches within is ill
    · intro is made x y value left right computes
      obtain ⟨_, typed, alike⟩ := sound.state history.executes reaches
      exact typed.fits alike is made left right computes
  · intro usual p rest spelled numbers quiet m history last reaches error after crashes
    have plain := compile_without_texts accepted usual spelled numbers quiet
    obtain ⟨inside, _, _⟩ := sound.state history.executes reaches
    have start : m.rewind.Executes (compile options input).program := history.executes
    have member := List.mem_of_getElem? inside.code
    rw [(start.reaches reaches).1] at member
    cases halting history reaches crashes with
    | kind ill => exact plain _ member ill

/-- The failure that a run reports. -/
def RunEnd.failure? : RunEnd → Option Failure
  | finished failure => failure
  | outOfFuel => none

theorem RunEnd.eq_finished {ends : RunEnd} {failure : Failure} (fails : ends.failure? = some failure) :
    ends = .finished (some failure) := by
  cases ends with
  | finished => exact congrArg finished fails
  | outOfFuel => cases fails

/-- A number is moved to a variable for texts, in a second run on the same machine. -/
theorem moved_number_into_text_is_declared :
    let input := Input.ofString "unit p; var s: string; var n: integer; begin
      n := -(3 * n) + 2; writeln('n'); s := n end."
    let m := ((Machine.new (compile {} input).program ⟨#[], []⟩ []).run .background 2).2
    (compile {} input).verdict = .accepted ∧ ∃ failure n last,
      (m.run .background 9).1 = .finished (some failure) ∧
        Machine.Goes .background 0 n m.rewind last ∧
        last.FailsFor (compile {} input).program.symbols none failure := by
  intro input m
  have accepted : (compile {} input).verdict = .accepted := Verdict.eq_accepted (by decide +kernel)
  refine ⟨accepted, ?_⟩
  have history : Machine.History (compile {} input).program m := .run (.new _ _) .background 2
  have fails : (m.run .background 9).1.failure?.isSome = true := by decide +kernel
  obtain ⟨failure, fails⟩ := Option.isSome_iff_exists.mp fails
  have finished := RunEnd.eq_finished fails
  obtain ⟨n, last, goes, reason⟩ :=
    ((compiled_faults_are_declared {} input accepted).1 m history).1 .background 9 failure finished
  exact ⟨failure, n, last, finished, goes, reason⟩

end MiniPascal
