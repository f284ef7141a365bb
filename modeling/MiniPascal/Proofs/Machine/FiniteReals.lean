import MiniPascal.Proofs.Compiler.Acceptance
import MiniPascal.Proofs.Doubles
import MiniPascal.Proofs.Machine.Runs

/-! # Reals stay finite

A result that is not finite is refused before it is stored, and a word always has a finite double next
to it. So a memory whose reals are all finite keeps them finite, whatever the quads are and whatever is
typed, and a real that goes into a cell for integers stands for a number: it is stored if a word can hold
that number without its fraction, and otherwise the quad fails. The memory that a compilation leaves
behind has finite reals only.
-/

namespace MiniPascal

open Outcome

/-- A value that, if it is a real, is finite. -/
def Value.Finite : Value → Prop
  | .real x => isFiniteReal x = true
  | _ => True

/-- Every real in a memory is finite. -/
def SymbolTable.Finite (table : SymbolTable) : Prop :=
  ∀ (i : Nat) (cell : Cell), table.cells[i]? = some cell → cell.value.Finite

/-! ## Values -/

theorem Value.finite_zero (kind : Kind) : (Value.zero kind).Finite := by
  cases kind with
  | real => exact (by decide +kernel : isFiniteReal 0 = true)
  | integer | text | other => trivial

theorem realOperation_finite {op : Opcode} {a b c : Float} (computes : realOperation op a b = .ok c) :
    isFiniteReal c = true := by
  have checked {result : Float}
      (same : (if isFiniteReal result then .ok result else .error Failure.notFinite) = Except.ok c) :
      isFiniteReal c = true := by
    split at same
    · rename_i finite
      cases same
      exact finite
    · cases same
  exact checked computes

theorem compute_finite {op : Opcode} {x y value : Value} (computes : compute op x y = .ok value) :
    value.Finite := by
  unfold compute at computes
  split at computes
  · obtain ⟨n, _, same⟩ := bind_eq_ok.mp computes
    cases same
    trivial
  · obtain ⟨a, _, computes⟩ := bind_eq_ok.mp computes
    obtain ⟨b, _, computes⟩ := bind_eq_ok.mp computes
    obtain ⟨c, result, same⟩ := bind_eq_ok.mp computes
    cases same
    exact realOperation_finite (ofResult_eq_ok.mp result)

theorem Value.Finite.converted {value result : Value} {kind : Kind} (finite : value.Finite)
    (converts : value.converted kind = .ok result) : result.Finite := by
  unfold Value.converted at converts
  split at converts
  · cases converts
    exact isFiniteReal_ofInt _
  · obtain ⟨n, _, same⟩ := bind_eq_ok.mp converts
    cases same
    trivial
  · cases converts
    exact finite

/-! ## Memories -/

namespace SymbolTable.Finite

variable {table after : SymbolTable}

theorem value {i : Int} {value : Value} (finite : table.Finite) (here : table.value i = .ok value) :
    value.Finite := by
  unfold SymbolTable.value SymbolTable.cell at here
  cases found : table.cell? i with
  | none =>
    rw [found] at here
    cases here
  | some cell =>
    obtain ⟨n, rfl, stored⟩ := exists_nat_of_cell? found
    rw [found] at here
    cases here
    exact finite n cell stored

theorem modify {value : Value} (finite : table.Finite) (number : value.Finite) (i : Nat) (usage : Usage) :
    (table.modify i usage value).Finite := by
  intro j cell here
  rw [cells_modify] at here
  split at here
  · obtain ⟨old, _, rfl⟩ := Option.map_eq_some_iff.mp here
    exact number
  · exact finite j cell here

theorem insert {cell : Cell} (finite : table.Finite) (number : cell.value.Finite) :
    (table.insert cell).Finite := by
  intro i other here
  rw [cells_insert] at here
  split at here
  · cases here
    exact number
  · exact finite i other here

theorem stored {i : Int} {value : Value} (finite : table.Finite) (number : value.Finite)
    (stores : table.stored i value = .ok after) : after.Finite := by
  obtain ⟨n, cell, result, _, _, converts, _, rfl⟩ := converted_of_stored stores
  exact finite.modify (number.converted converts) n cell.usage

end SymbolTable.Finite

/-! ## Runs -/

/-- A value that a quad is about to put into the cell that it names. -/
inductive Quad.Offers (q : Quad) (symbols : SymbolTable) : Value → Prop
  | result {x y value : Value} (is : q.op.isArithmetic = true) (left : symbols.value q.a = .ok x)
      (right : symbols.value q.b = .ok y) (computes : compute q.op x y = .ok value) :
      Offers q symbols value
  | copy {value : Value} (is : q.op = .mov) (source : symbols.value q.a = .ok value) :
      Offers q symbols value

theorem Quad.Offers.finite {q : Quad} {symbols : SymbolTable} {value : Value}
    (offers : q.Offers symbols value) (finite : symbols.Finite) : value.Finite := by
  cases offers with
  | result _ _ _ computes => exact compute_finite computes
  | copy _ source => exact finite.value source

theorem Quad.Offers.action {q : Quad} {symbols : SymbolTable} {value : Value}
    (offers : q.Offers symbols value) :
    q.action symbols = (symbols.stored q.c value >>= fun after => .ok (.write after)) := by
  cases offers with
  | result is left right computes =>
    rw [action_of_arithmetic is, left, right]
    change compute q.op _ _ >>= _ = _
    rw [computes]
    rfl
  | copy is source =>
    rw [action_of_mov is, source]
    rfl

namespace Machine

/-- What becomes of a number that is put into a cell for integers: it is stored without its fraction, or
no word can hold it and the quad fails. -/
inductive StoresNumber (m : Machine) (v : ℚ) : Prop
  | inside {i : Nat} {cell : Cell} {n : Int64} (low : -2 ^ 63 ≤ v) (high : v < 2 ^ 63)
      (names : m.next.c = i) (here : m.program.symbols.cells[i]? = some cell)
      (cut : n.toInt = towardZero v)
      (steps : Exec.step m =
        .ok () (m.ready.withSymbols (m.program.symbols.modify i cell.usage (.int n))))
  | outside (beyond : v < -2 ^ 63 ∨ 2 ^ 63 ≤ v)
      (fails : Exec.step m = .error (.stopped (some (m.ready.faultBy .overflow)))
        (m.ready.closing (some (m.ready.faultBy .overflow))))

variable {m last after : Machine}

theorem storesNumber_of_offers {x : Float} (finite : m.program.symbols.Finite)
    (within : ¬ m.OverLimit) (offers : m.next.Offers m.program.symbols (.real x))
    (integer : m.program.symbols.kind m.next.c = .ok .integer) :
    ∃ v, number? x = some v ∧ m.StoresNumber v := by
  have real : isFiniteReal x = true := offers.finite finite
  rw [← isSome_number] at real
  obtain ⟨v, number⟩ := Option.isSome_iff_exists.mp real
  refine ⟨v, number, ?_⟩
  have acts := offers.action
  unfold SymbolTable.kind SymbolTable.cell at integer
  cases found : m.program.symbols.cell? m.next.c with
  | none =>
    rw [found] at integer
    cases integer
  | some cell =>
    obtain ⟨i, names, here⟩ := SymbolTable.exists_nat_of_cell? found
    rw [found] at integer
    have integer : cell.value.kind = .integer := Except.ok.inj integer
    rw [names, SymbolTable.stored_of_cell here, integer] at acts
    obtain ⟨low, high, n, fits, cut⟩ | ⟨beyond, fails⟩ := realToWord_of_number number
    · have does : m.intent = .ok (.write (m.program.symbols.modify i cell.usage (.int n))) := by
        refine acts.trans ?_
        change (Outcome.ofResult (realToWord x) >>= _) >>= _ >>= _ = _
        rw [fits]
        rfl
      exact .inside low high names here cut (Steps.write within does).eq
    · have does : m.intent = .error (.fault .overflow) := by
        refine acts.trans ?_
        change (Outcome.ofResult (realToWord x) >>= _) >>= _ >>= _ = _
        rw [fails]
        rfl
      exact .outside beyond (Halts.trouble within does).eq

theorem Steps.finite (steps : m.Steps after) (finite : m.program.symbols.Finite) :
    after.program.symbols.Finite := by
  cases steps with
  | write within does =>
    cases Quad.does_of_action does with
    | arithmetic _ _ _ computes stores => exact finite.stored (compute_finite computes) stores
    | mov _ source stores => exact finite.stored (finite.value source) stores
  | goto | next | print =>
    change m.ready.program.symbols.Finite
    rwa [m.program_ready]
  | @read _ _ n _ within does clear named answers stores =>
    have integer : (Value.int n).Finite := trivial
    exact finite.stored integer stores

theorem Reaches.finite (reaches : m.Reaches last) (finite : m.program.symbols.Finite) :
    last.program.symbols.Finite :=
  Reaches.keeps reaches (P := fun m => m.program.symbols.Finite) (fun _ _ steps => steps.finite) finite

theorem run_finite (finite : m.program.symbols.Finite) (context : Context) (fuel : Nat) :
    (m.run context fuel).2.program.symbols.Finite :=
  run_keeps (P := fun program => program.symbols.Finite) (fun _ _ steps => steps.finite) finite
    context fuel

end Machine

/-! ## Compiled programs -/

/-- A real literal whose number is too large for a double is refused by the scanner. -/
theorem Lexeme.Proper.finite {quote : Char} {found : Lexeme} {registration : Registration}
    (proper : found.Proper quote) (registers : found.registration = some registration) :
    registration.value.Finite := by
  cases proper with
  | identifier _ here | integer _ here | text _ here =>
    rw [here] at registers
    cases registers
    trivial
  | real _ here _ _ _ denotes =>
    rw [here] at registers
    cases registers
    unfold readReal? at denotes
    obtain ⟨decimal, _, denotes⟩ := Option.bind_eq_some_iff.mp denotes
    dsimp only at denotes
    split at denotes
    · rename_i finite
      cases denotes
      exact finite
    · cases denotes
  | plain _ _ none =>
    rw [none] at registers
    cases registers

namespace Session

/-- All reals of a session are finite, those of the literals still to come included. -/
structure Finite (s : Session) : Prop where
  symbols : s.symbols.Finite
  unread : ∀ item ∈ s.unread, ∀ cell, item.cell? = some cell → cell.value.Finite

variable {s t : Session}

theorem Finite.advance (finite : s.Finite) : s.advance.Finite := by
  constructor
  · obtain same | ⟨item, items, cell, unread, registers, _, _, added⟩ := s.symbols_advance
    · rw [same]
      exact finite.symbols
    · rw [added]
      exact finite.symbols.insert (finite.unread item (by simp [unread]) cell registers)
  · intro item member
    rw [unread_advance] at member
    exact finite.unread item (List.mem_of_mem_drop member)

theorem Move.finite {declaring : Prop} (move : Move declaring s t) (finite : s.Finite) : t.Finite := by
  cases move with
  | advance => exact finite.advance
  | symbol name value own =>
    refine ⟨finite.symbols.insert ?_, finite.unread⟩
    obtain ⟨n, _, _, rfl⟩ | ⟨_, kind, rfl⟩ := own
    · trivial
    · exact Value.finite_zero kind
  | declare _ usage value word found here given =>
    refine ⟨finite.symbols.modify ?_ _ usage, finite.unread⟩
    obtain rfl | ⟨kind, rfl⟩ := given
    · exact finite.symbols _ _ here
    · exact Value.finite_zero kind
  | observe | fail | exhaust | emit | patch | mint => exact ⟨finite.symbols, finite.unread⟩

end Session

theorem start_finite (options : CompileOptions) (input : Input) :
    (Session.start options input).Finite := by
  constructor
  · intro i cell here
    simp [Session.start, Lexing.start, SymbolTable.empty] at here
  · intro item member cell registers
    obtain ⟨found, lexeme, here⟩ := Option.bind_eq_some_iff.mp registers
    obtain ⟨registration, registered, rfl⟩ := Option.map_eq_some_iff.mp here
    exact (scanned_proper options input item member found lexeme).finite registered

theorem compile_finite (options : CompileOptions) (input : Input) :
    (compile options input).program.symbols.Finite := by
  obtain ⟨t, moves, tables⟩ := compile_moves options input
  rw [tables]
  exact (moves.keeps (fun _ _ move => move.finite) (start_finite options input).advance).symbols

/-- Reals that are finite before a run stay finite. So a real that goes into a cell for integers is a
number, and it is stored without its fraction if that fits. -/
theorem reals_stay_finite :
    (∀ m : Machine, m.program.symbols.Finite →
      (∀ last, m.rewind.Reaches last → last.program.symbols.Finite ∧
        ∀ x, ¬ last.OverLimit → last.next.Offers last.program.symbols (.real x) →
          last.program.symbols.kind last.next.c = .ok .integer →
            ∃ v, number? x = some v ∧ last.StoresNumber v) ∧
      ∀ context fuel, (m.run context fuel).2.program.symbols.Finite) ∧
    ∀ options input, (compile options input).program.symbols.Finite := by
  refine ⟨fun m finite => ⟨fun last reaches => ?_, Machine.run_finite finite⟩, compile_finite⟩
  have start : m.rewind.program.symbols.Finite := finite
  have here := Machine.Reaches.finite reaches start
  exact ⟨here, fun x within offers integer => Machine.storesNumber_of_offers here within offers integer⟩

/-- A memory with a real that has a fraction, and a cell for integers. -/
def halfAndWhole : SymbolTable where
  capacity := 2
  cells := #[⟨"h", .var, .real (-2.75)⟩, ⟨"w", .var, .int 0⟩]
  index := [(['W'], 1), (['H'], 0)]

/-- A program that was built by hand moves a real into the cell for integers. -/
theorem moved_real_is_cut_off :
    let m := Machine.new ⟨halfAndWhole, { capacity := 1, quads := #[⟨.mov, 0, 0, 1⟩] }⟩ ⟨#[], []⟩ []
    m.program.symbols.Finite ∧ ∃ v, number? (-2.75) = some v ∧ m.rewind.StoresNumber v := by
  intro m
  have finite : m.program.symbols.Finite := by
    intro i cell here
    have member : cell ∈ [_, _] := Array.mem_def.mp (Array.mem_of_getElem? here)
    rw [List.mem_pair] at member
    obtain rfl | rfl := member
    · exact (by decide +kernel : isFiniteReal (-2.75) = true)
    · trivial
  refine ⟨finite, ?_⟩
  obtain ⟨_, stores⟩ := (reals_stay_finite.1 m finite).1 m.rewind .refl
  exact stores (-2.75) (by decide +kernel) (.copy rfl rfl) rfl

end MiniPascal
