import MiniPascal.Proofs.Compiler.Moves
import MiniPascal.Proofs.Machine.Runs

/-! # Kinds while a program runs

A quad is ill-typed when the kinds of its cells make it calculate with a text, move between a text and
a number, or read into a text. `Quad.Typed` is what the compiler sees to: all cells exist, jumps lead
somewhere, only numbers are tested, and a temporary has the kind of the result that is stored in it. A
machine that executes a typed quad gets stuck for a fault of arithmetic or at an ill-typed quad, and it
gets stuck at every ill-typed quad that calculates or moves.
-/

namespace MiniPascal

open Outcome

/-! ## Calculating -/

/-- The faults of arithmetic. -/
inductive Failure.Numerical : Failure → Prop
  | divisionByZero : Numerical .divisionByZero
  | overflow : Numerical .overflow
  | notFinite : Numerical .notFinite

theorem integerOperation_fails {op : Opcode} {a b : Int64} {cause : Failure}
    (fails : integerOperation op a b = .error cause) : cause.Numerical := by
  unfold integerOperation at fails
  split at fails
  · split at fails
    · cases fails
      exact .divisionByZero
    · split at fails
      · cases fails
        exact .overflow
      · cases fails
  all_goals
    dsimp only at fails
    split at fails
    · cases fails
      exact .overflow
    · cases fails

theorem realOperation_fails {op : Opcode} {a b : Float} {cause : Failure}
    (fails : realOperation op a b = .error cause) : cause.Numerical := by
  unfold realOperation at fails
  extract_lets c at fails
  split at fails
  · cases fails
  · cases fails
    exact .notFinite

/-- Integers are calculated with as integers. -/
theorem compute_int (op : Opcode) (a b : Int64) :
    compute op (.int a) (.int b) = (ofResult (integerOperation op a b)).map .int := by
  change (ofResult (integerOperation op a b)).bind _ = _
  cases integerOperation op a b <;> rfl

/-- Numbers of which one is real are calculated with as reals. -/
theorem compute_real (op : Opcode) {x y : Value} {a b : Float} (left : x.toReal = .ok a)
    (right : y.toReal = .ok b) (real : arithmeticKind x.kind y.kind = .real) :
    compute op x y = (ofResult (realOperation op a b)).map .real := by
  have reals : compute op x y = (ofAccess x.toReal).bind fun a => (ofAccess y.toReal).bind fun b =>
      (ofResult (realOperation op a b)).bind fun c => .ok (.real c) := by
    cases x with
    | int =>
      cases y with
      | int => cases real
      | real | text => rfl
    | real | text => rfl
  rw [reals, left, right]
  change (ofResult (realOperation op a b)).bind _ = _
  cases realOperation op a b <;> rfl

theorem Value.toReal_numeric {x : Value} (numeric : x.kind.Numeric) : ∃ a, x.toReal = .ok a := by
  cases x with
  | int n => exact ⟨_, rfl⟩
  | real a => exact ⟨a, rfl⟩
  | text => exact absurd rfl numeric.ne_text

theorem Value.eq_int {x : Value} (integer : x.kind = .integer) : ∃ n, x = .int n := by
  cases x with
  | int n => exact ⟨n, rfl⟩
  | real | text => cases integer

theorem arithmeticKind_eq_integer {left right : Kind} (integer : arithmeticKind left right = .integer) :
    left = .integer ∧ right = .integer := by
  unfold arithmeticKind at integer
  split at integer
  · assumption
  · cases integer

/-- An operation on numbers has a result of the kind that the kinds of the operands tell, or a fault of
arithmetic. -/
theorem compute_numeric (op : Opcode) {x y : Value} (left : x.kind.Numeric)
    (right : y.kind.Numeric) :
    (∃ value, compute op x y = .ok value ∧ value.kind = arithmeticKind x.kind y.kind) ∨
      ∃ cause, compute op x y = .error (.fault cause) ∧ cause.Numerical := by
  obtain integer | real := arithmeticKind_numeric x.kind y.kind
  · obtain ⟨⟨a, rfl⟩, ⟨b, rfl⟩⟩ :=
      (arithmeticKind_eq_integer integer).imp Value.eq_int Value.eq_int
    rw [compute_int]
    cases result : integerOperation op a b with
    | ok c => exact .inl ⟨.int c, rfl, rfl⟩
    | error cause => exact .inr ⟨cause, rfl, integerOperation_fails result⟩
  · obtain ⟨a, first⟩ := Value.toReal_numeric left
    obtain ⟨b, second⟩ := Value.toReal_numeric right
    rw [compute_real op first second real, real]
    cases result : realOperation op a b with
    | ok c => exact .inl ⟨.real c, rfl, rfl⟩
    | error cause => exact .inr ⟨cause, rfl, realOperation_fails result⟩

/-- A text is nothing to calculate with. -/
theorem compute_text (op : Opcode) {x y : Value} (text : x.kind = .text ∨ y.kind = .text) :
    ∃ held wanted, compute op x y = .error (.crash (.wrongKind (-1) held wanted)) := by
  cases x with
  | text => exact ⟨_, _, rfl⟩
  | int | real =>
    cases y with
    | text => exact ⟨_, _, rfl⟩
    | int | real =>
      obtain absurd | absurd := text
      · cases absurd
      · cases absurd

theorem Value.sign_numeric {x : Value} (numeric : x.kind.Numeric) : ∃ sign, x.sign = .ok sign := by
  cases x with
  | int n => exact ⟨_, rfl⟩
  | real a => exact ⟨_, rfl⟩
  | text => exact absurd rfl numeric.ne_text

/-! ## Kinds of cells -/

namespace SymbolTable

/-- The cell at an index holds a number. -/
def Numeric (table : SymbolTable) (i : Int) : Prop := ∃ kind, table.kind i = .ok kind ∧ kind.Numeric

/-- What a memory holds in a cell that a table of its shape has. -/
theorem Alike.operand {table symbols : SymbolTable} (alike : table.Alike symbols) {i : Int}
    (bound : 0 ≤ i ∧ i < table.size) : ∃ (n : Nat) (cell : Cell), i = n ∧
      symbols.cells[n]? = some cell ∧ table.kind i = .ok cell.value.kind := by
  obtain ⟨n, rfl⟩ := Int.eq_ofNat_of_zero_le bound.1
  obtain ⟨old, before⟩ := @exists_cell table n (by omega)
  obtain ⟨cell, here, shape⟩ := alike.stays before
  have kind : cell.value.kind = old.value.kind := congrArg (fun shape => shape.2.2) shape
  refine ⟨n, cell, rfl, here, ?_⟩
  rw [kind]
  exact kind_of_cell before

/-- An operand is read, with the kind that the table tells. -/
theorem Alike.read {table symbols : SymbolTable} (alike : table.Alike symbols) {i : Int}
    (bound : 0 ≤ i ∧ i < table.size) : ∃ x, symbols.value i = .ok x ∧ table.kind i = .ok x.kind := by
  obtain ⟨n, cell, rfl, here, kind⟩ := alike.operand bound
  exact ⟨cell.value, value_of_cell here, kind⟩

theorem Numeric.not_text {table : SymbolTable} {i : Int} (numeric : table.Numeric i) :
    table.kind i ≠ .ok .text := by
  obtain ⟨kind, here, number⟩ := numeric
  rw [here]
  intro text
  exact number.ne_text (Except.ok.inj text)

end SymbolTable

namespace Quad

variable {q : Quad} {table symbols : SymbolTable} {cells : Nat}

theorem WellFormed.operands (wf : q.WellFormed cells) (is : q.op.isArithmetic = true) :
    (0 ≤ q.a ∧ q.a < cells) ∧ (0 ≤ q.b ∧ q.b < cells) ∧ (0 ≤ q.c ∧ q.c < cells) := by
  have fields : q.cellFields = [q.a, q.b, q.c] := by
    unfold cellFields
    cases op : q.op <;> simp_all [Opcode.isArithmetic]
  have bounds := wf.2
  rw [fields] at bounds
  exact ⟨bounds _ (by simp), bounds _ (by simp), bounds _ (by simp)⟩

theorem WellFormed.ends (wf : q.WellFormed cells) (is : q.op = .mov) :
    (0 ≤ q.a ∧ q.a < cells) ∧ (0 ≤ q.c ∧ q.c < cells) := by
  have fields : q.cellFields = [q.a, q.c] := by rw [cellFields, is]
  have bounds := wf.2
  rw [fields] at bounds
  exact ⟨bounds _ (by simp), bounds _ (by simp)⟩

theorem WellFormed.tested (wf : q.WellFormed cells) (is : q.op.isConditional = true) :
    0 ≤ q.a ∧ q.a < cells := by
  have fields : q.cellFields = [q.a] := by
    unfold cellFields
    cases op : q.op <;> simp_all [Opcode.isConditional]
  exact wf.2 _ (by simp [fields])

theorem WellFormed.only (wf : q.WellFormed cells) (is : q.op = .print ∨ q.op = .read) :
    0 ≤ q.c ∧ q.c < cells := by
  have fields : q.cellFields = [q.c] := by
    obtain is | is := is <;> rw [cellFields, is]
  exact wf.2 _ (by simp [fields])

/-- The kinds of its cells make a quad ill-typed. -/
inductive IllTyped (table : SymbolTable) (q : Quad) : Prop
  | left (is : q.op.isArithmetic = true) (text : table.kind q.a = .ok .text)
  | right (is : q.op.isArithmetic = true) (text : table.kind q.b = .ok .text)
  | fromText (is : q.op = .mov) (text : table.kind q.a = .ok .text) (number : table.Numeric q.c)
  | toText (is : q.op = .mov) (number : table.Numeric q.a) (text : table.kind q.c = .ok .text)
  | read (is : q.op = .read) (text : table.kind q.c = .ok .text)

/-- What the compiler sees to in the kinds of the cells of a quad. -/
structure Kinds (table : SymbolTable) (q : Quad) : Prop where
  tested : q.op.isConditional = true → table.Numeric q.a
  computed : q.op.isArithmetic = true → table.Numeric q.a → table.Numeric q.c
  temporary : q.op.isArithmetic = true → table.IsTemporary q.c → ∃ left right,
    table.kind q.a = .ok left ∧ table.kind q.b = .ok right ∧
      table.kind q.c = .ok (arithmeticKind left right)

/-- What the compiler sees to in a quad, given the cells. -/
structure Typed (table : SymbolTable) (q : Quad) : Prop extends q.Kinds table where
  wellFormed : q.WellFormed table.size
  direct : q.op ≠ .jindr
  jumps : q.op.isJump = true → 0 ≤ q.c

end Quad

/-- Why a value is not stored in a cell: it is a number that the cell's kind cannot take, or there is a
text on one side only. -/
theorem SymbolTable.stored_fails {symbols : SymbolTable} {n : Nat} {cell : Cell}
    (here : symbols.cells[n]? = some cell) {value : Value} {trouble : Trouble}
    (fails : symbols.stored n value = .error trouble) :
    trouble = .fault .overflow ∨
      (∃ index held wanted, trouble = .crash (.wrongKind index held wanted)) ∧
        (value.kind = .text ∧ cell.value.kind.Numeric ∨
          value.kind.Numeric ∧ cell.value.kind = .text) := by
  have crashes (text : value.kind = .text ∨ cell.value.kind = .text)
      (other : cell.value.kind ≠ value.kind) :
      ∃ index held wanted, trouble = .crash (.wrongKind index held wanted) := by
    rw [stored_mismatch here text other] at fails
    cases fails
    exact ⟨_, _, _, rfl⟩
  obtain number | text := value.kind_cases
  · obtain numeric | text := cell.value.kind_cases
    · obtain ⟨result, _, _, stores⟩ | ⟨_, overflows⟩ := stored_numeric here number numeric
      · rw [stores] at fails
        cases fails
      · rw [overflows] at fails
        cases fails
        exact .inl rfl
    · have other : cell.value.kind ≠ value.kind := text ▸ number.ne_text.symm
      exact .inr ⟨crashes (.inr text) other, .inr ⟨number, text⟩⟩
  · obtain numeric | both := cell.value.kind_cases
    · have other : cell.value.kind ≠ value.kind := text ▸ numeric.ne_text
      exact .inr ⟨crashes (.inl text) other, .inl ⟨text, numeric⟩⟩
    · rw [stored_same here (text.trans both.symm)] at fails
      cases fails

namespace Quad

variable {q : Quad} {table symbols : SymbolTable} {trouble : Trouble}

/-- The kind of an operand that was read. -/
theorem kind_of_value (alike : table.Alike symbols) {i : Int} (bound : 0 ≤ i ∧ i < table.size)
    {x : Value} (here : symbols.value i = .ok x) : table.kind i = .ok x.kind := by
  obtain ⟨y, read, kind⟩ := alike.read bound
  rw [here] at read
  cases read
  exact kind

/-- An operation on two cells of a memory has a result, a fault of arithmetic, or a text operand. -/
theorem Typed.compute (typed : q.Typed table) (alike : table.Alike symbols)
    (is : q.op.isArithmetic = true) {x y : Value} (left : symbols.value q.a = .ok x)
    (right : symbols.value q.b = .ok y) :
    (∃ value, MiniPascal.compute q.op x y = .ok value ∧ table.Numeric q.a ∧
      value.kind = arithmeticKind x.kind y.kind) ∨
    (∃ cause, MiniPascal.compute q.op x y = .error (.fault cause) ∧ cause.Numerical) ∨
    (∃ held wanted, MiniPascal.compute q.op x y = .error (.crash (.wrongKind (-1) held wanted))) ∧
      q.IllTyped table := by
  obtain ⟨first, second, _⟩ := typed.wellFormed.operands is
  have kindLeft := kind_of_value alike first left
  have kindRight := kind_of_value alike second right
  obtain numberLeft | text := x.kind_cases
  · obtain numberRight | text := y.kind_cases
    · obtain ⟨value, computes, kind⟩ | fails := compute_numeric q.op numberLeft numberRight
      · exact .inl ⟨value, computes, ⟨_, kindLeft, numberLeft⟩, kind⟩
      · exact .inr (.inl fails)
    · exact .inr (.inr ⟨compute_text q.op (.inr text), .right is (text ▸ kindRight)⟩)
  · exact .inr (.inr ⟨compute_text q.op (.inl text), .left is (text ▸ kindLeft)⟩)

/-- Why a typed quad cannot be executed. -/
theorem Typed.stuck (typed : q.Typed table) (alike : table.Alike symbols)
    (stuck : q.Stuck symbols trouble) :
    (∃ cause, trouble = .fault cause ∧ cause.Numerical) ∨
      (∃ index held wanted, trouble = .crash (.wrongKind index held wanted)) ∧ q.IllTyped table := by
  have wf := typed.wellFormed
  -- the cells that a quad names can be read
  have reads {i : Int} {error : AccessError} (bound : 0 ≤ i ∧ i < table.size)
      (missing : symbols.value i = .error error) : False := by
    obtain ⟨x, here, _⟩ := alike.read bound
    rw [here] at missing
    cases missing
  cases stuck with
  | left is missing => exact (reads (wf.operands is).1 missing).elim
  | right is missing => exact (reads (wf.operands is).2.1 missing).elim
  | source is missing => exact (reads (wf.ends is).1 missing).elim
  | unprinted is missing => exact (reads (wf.only (.inl is)) missing).elim
  | untested is missing => exact (reads (wf.tested is) missing).elim
  | unheld is => exact absurd is typed.direct
  | invalid is =>
    have valid := wf.1
    rw [is] at valid
    cases valid
  | uncomputed is left right fails =>
    obtain ⟨value, computes, _⟩ | ⟨cause, faults, numerical⟩ | ⟨⟨held, wanted, crashes⟩, ill⟩ :=
      typed.compute alike is left right
    · rw [computes] at fails
      cases fails
    · rw [faults] at fails
      cases fails
      exact .inl ⟨cause, rfl, numerical⟩
    · rw [crashes] at fails
      cases fails
      exact .inr ⟨⟨_, _, _, rfl⟩, ill⟩
  | unstored is left right computes fails =>
    obtain ⟨value, here, number, kind⟩ | ⟨cause, faults, _⟩ | ⟨⟨_, _, crashes⟩, _⟩ :=
      typed.compute alike is left right
    · rw [here] at computes
      cases computes
      obtain ⟨n, cell, same, stored, held⟩ := alike.operand (wf.operands is).2.2
      obtain ⟨other, again, numeric⟩ := typed.computed is number
      rw [same] at fails
      obtain overflows | ⟨_, sides⟩ := SymbolTable.stored_fails stored fails
      · exact .inl ⟨_, overflows, .overflow⟩
      · -- both the result and its cell are numbers
        rw [held] at again
        cases again
        obtain ⟨text, _⟩ | ⟨_, text⟩ := sides
        · rw [kind] at text
          exact absurd text (arithmeticKind_numeric _ _).ne_text
        · exact absurd text numeric.ne_text
    · rw [faults] at computes
      cases computes
    · rw [crashes] at computes
      cases computes
  | unmoved is source fails =>
    obtain ⟨first, second⟩ := wf.ends is
    have held := kind_of_value alike first source
    obtain ⟨n, cell, same, stored, kind⟩ := alike.operand second
    rw [same] at fails
    obtain overflows | ⟨crashes, ⟨text, number⟩ | ⟨number, text⟩⟩ :=
      SymbolTable.stored_fails stored fails
    · exact .inl ⟨_, overflows, .overflow⟩
    · exact .inr ⟨crashes, .fromText is (text ▸ held) ⟨_, kind, number⟩⟩
    · exact .inr ⟨crashes, .toText is ⟨_, held, number⟩ (text ▸ kind)⟩
  | unsigned is tested fails =>
    obtain ⟨kind, here, number⟩ := typed.tested is
    rw [kind_of_value alike (wf.tested is) tested] at here
    cases here
    obtain ⟨sign, signed⟩ := Value.sign_numeric number
    rw [signed] at fails
    cases fails

/-- Why the answer to a prompt is not stored. -/
theorem Typed.unread (typed : q.Typed table) (alike : table.Alike symbols) (is : q.op = .read)
    {n : Int64} (fails : symbols.stored q.c (.int n) = .error trouble) :
    (∃ cause, trouble = .fault cause ∧ cause.Numerical) ∨
      (∃ index held wanted, trouble = .crash (.wrongKind index held wanted)) ∧ q.IllTyped table := by
  obtain ⟨i, cell, same, stored, kind⟩ := alike.operand (typed.wellFormed.only (.inr is))
  rw [same] at fails
  obtain overflows | ⟨crashes, ⟨text, _⟩ | ⟨_, text⟩⟩ := SymbolTable.stored_fails stored fails
  · exact .inl ⟨_, overflows, .overflow⟩
  · cases text
  · exact .inr ⟨crashes, .read is (text ▸ kind)⟩

/-! ## Ill-typed quads -/

/-- An ill-typed quad that calculates or moves is never executed. -/
theorem IllTyped.crashes (ill : q.IllTyped table) (wf : q.WellFormed table.size)
    (alike : table.Alike symbols) (is : q.op.isArithmetic = true ∨ q.op = .mov) :
    ∃ index held wanted, q.action symbols = .error (.crash (.wrongKind index held wanted)) := by
  have calculates (is : q.op.isArithmetic = true)
      (text : table.kind q.a = .ok .text ∨ table.kind q.b = .ok .text) :
      ∃ index held wanted, q.action symbols = .error (.crash (.wrongKind index held wanted)) := by
    obtain ⟨first, second, _⟩ := wf.operands is
    obtain ⟨x, left, kindLeft⟩ := alike.read first
    obtain ⟨y, right, kindRight⟩ := alike.read second
    rw [kindLeft, kindRight] at text
    obtain ⟨held, wanted, crashes⟩ :=
      compute_text q.op (text.imp Except.ok.inj Except.ok.inj)
    rw [action_of_arithmetic is, left, right]
    change ∃ index held wanted, MiniPascal.compute q.op x y >>= _ = _
    rw [crashes]
    exact ⟨_, _, _, rfl⟩
  have moves (is : q.op = .mov)
      (sides : table.kind q.a = .ok .text ∧ table.Numeric q.c ∨
        table.Numeric q.a ∧ table.kind q.c = .ok .text) :
      ∃ index held wanted, q.action symbols = .error (.crash (.wrongKind index held wanted)) := by
    obtain ⟨first, second⟩ := wf.ends is
    obtain ⟨x, source, kind⟩ := alike.read first
    obtain ⟨n, cell, same, here, held⟩ := alike.operand second
    rw [action_of_mov is, source, same]
    change ∃ index held wanted, symbols.stored n x >>= _ = _
    have mismatch : (x.kind = .text ∨ cell.value.kind = .text) ∧ cell.value.kind ≠ x.kind := by
      obtain ⟨text, other, numeric, number⟩ | ⟨⟨other, numeric, number⟩, text⟩ := sides
      · rw [kind] at text
        rw [held] at numeric
        cases numeric
        have text := Except.ok.inj text
        exact ⟨.inl text, text ▸ number.ne_text⟩
      · rw [held] at text
        rw [kind] at numeric
        cases numeric
        have text := Except.ok.inj text
        exact ⟨.inr text, text ▸ number.ne_text.symm⟩
    rw [SymbolTable.stored_mismatch here mismatch.1 mismatch.2]
    exact ⟨_, _, _, rfl⟩
  cases ill with
  | left is text => exact calculates is (.inl text)
  | right is text => exact calculates is (.inr text)
  | fromText is text number => exact moves is (.inl ⟨text, number⟩)
  | toText is number text => exact moves is (.inr ⟨number, text⟩)
  | read reads =>
    rw [reads] at is
    obtain absurd | absurd := is
    · cases absurd
    · cases absurd

/-- The result of an operation has the kind of the temporary that it is stored in. -/
theorem Typed.fits (typed : q.Typed table) (alike : table.Alike symbols)
    (is : q.op.isArithmetic = true) (made : table.IsTemporary q.c) {x y value : Value}
    (left : symbols.value q.a = .ok x) (right : symbols.value q.b = .ok y)
    (computes : MiniPascal.compute q.op x y = .ok value) : table.kind q.c = .ok value.kind := by
  obtain ⟨first, second, _⟩ := typed.wellFormed.operands is
  obtain ⟨kind, other, here, there, result⟩ := typed.temporary is made
  rw [kind_of_value alike first left] at here
  rw [kind_of_value alike second right] at there
  cases here
  cases there
  obtain ⟨_, same, _, kind⟩ | ⟨_, faults, _⟩ | ⟨⟨_, _, crashes⟩, _⟩ :=
    typed.compute alike is left right
  · rw [same] at computes
    cases computes
    rw [kind, result]
  · rw [faults] at computes
    cases computes
  · rw [crashes] at computes
    cases computes

end Quad

end MiniPascal
