import MiniPascal.Proofs.ConstantCells
import MiniPascal.Proofs.Lexing.Symbols
import MiniPascal.Proofs.Simulation.Setting

/-! # The memory of a compiled program during its runs

Whatever a machine has done with a compiled program, its memory represents a store: the one that gives
each variable what is in its cell. For the cells of the numbers of the text and of the compiler's units
still hold what the compiler put there. Text literals are left out, for two of them may share a cell. The
quote character may be any.
-/

namespace MiniPascal

open Syntax Session

/-! ## Numbers -/

/-- A lexeme with a name that starts with a digit is a number. -/
theorem Lexeme.Classified.number_of_digit {quote c : Char} {rest : List Char} {found : Lexeme}
    {registration : Registration} (classified : found.Classified quote)
    (registers : found.registration = some registration) (fold : found.token.text.fold = c :: rest)
    (digit : isDigit c = true) :
    found.token.kind = .integerLiteral ∨ found.token.kind = .realLiteral := by
  obtain ⟨_, d, _, here, letter⟩ | ⟨is, _⟩ | ⟨is, inner, here⟩ := classified.proper.fold_cases registers
  · rw [fold] at here
    rw [← (List.cons.inj here).1, not_letter_of_digit digit] at letter
    cases letter
  · exact is
  · rw [fold] at here
    rw [(List.cons.inj here).1] at digit
    have small : (upperCase quote).toNat < 65 := by
      simp only [isDigit, Bool.and_eq_true, decide_eq_true_eq, Char.le_def,
        UInt32.le_iff_toNat_le] at digit
      simp at digit
      omega
    rw [upperCase_of_small small, classified.text is] at digit
    cases digit

/-- The name of a number starts with a digit. -/
theorem Lexeme.Proper.fold_of_number {quote : Char} {found : Lexeme} {registration : Registration}
    (proper : found.Proper quote) (registers : found.registration = some registration)
    (is : found.token.kind = .integerLiteral ∨ found.token.kind = .realLiteral) :
    ∃ c rest, found.token.text.fold = c :: rest ∧ isDigit c = true := by
  obtain ⟨⟨c, rest, starts, digit⟩, _⟩ := proper.number registers is
  refine ⟨c, rest.map upperCase, ?_, digit⟩
  rw [Token.text, Text.fold_ofChars, starts, List.map_cons, upperCase_digit digit]

/-- The cell of a number holds that number. -/
theorem Session.Ledger.number {quote : Char} {lexemes : List Lexeme} {s : Session}
    (ledger : s.Ledger quote lexemes) (classified : ∀ found ∈ lexemes, found.Classified quote)
    {found : Lexeme} {registration : Registration} (member : found ∈ lexemes)
    (registers : found.registration = some registration)
    (is : found.token.kind = .integerLiteral ∨ found.token.kind = .realLiteral) {i : Nat}
    (here : s.symbols.lookup? found.token.text = some i) : s.symbols.Holds i registration.value := by
  have proper := ledger.proper found member
  obtain ⟨c, rest, fold, digit⟩ := proper.fold_of_number registers is
  have plain := Text.not_isWord_of_head fold (not_letter_of_digit digit)
  obtain ⟨cell, stored, same⟩ := (ledger.symbols.lookup_iff _ i).mp here
  refine ⟨cell, stored, ?_⟩
  -- whichever symbol was first, its value is that of the number
  cases ledger.cells i cell stored with
  | @registered other _ member' registers' name kept =>
    have plain' : ¬ cell.name.IsWord := fun word => plain (word.congr same)
    rw [name] at same
    have is' := (classified _ member').number_of_digit registers' (Eq.trans same fold) digit
    rw [kept plain', (ledger.proper _ member').same_number proper registers' registers is' is same]
  | unit n unit name held =>
    rw [name] at same
    rw [held, proper.value_of_unit registers unit same.symm]
  | temporary n name =>
    rw [name] at same
    exact absurd same.symm (proper.not_temporary registers n)

/-! ## Stores -/

/-- What is in the cells of the variables. -/
def SymbolTable.store (symbols : SymbolTable) : Store := fun name =>
  ((symbols.lookup? name).bind (symbols.cells[·]?)).elim (.int 0) (·.value)

theorem SymbolTable.Holds.store {symbols : SymbolTable} {name : Text} {i : Nat} {value : Value}
    (holds : symbols.Holds i value) (found : symbols.lookup? name = some i) :
    symbols.store name = value := by
  obtain ⟨cell, here, rfl⟩ := holds
  rw [SymbolTable.store, found, Option.bind_some, here]
  rfl

theorem SymbolTable.WellFormed.holds_store {table symbols : SymbolTable} (wf : table.WellFormed)
    (alike : table.Alike symbols) {name : Text} {i : Nat} (found : table.lookup? name = some i) :
    symbols.Holds i (symbols.store name) := by
  obtain ⟨cell, stored⟩ := SymbolTable.exists_cell (wf.lookup_lt found)
  obtain ⟨now, here, _⟩ := alike.stays stored
  have holds : symbols.Holds i now.value := ⟨now, here, rfl⟩
  rw [holds.store ((alike.lookup name).trans found)]
  exact holds

/-! ## The setting of compiled code -/

/-- The setting of a compiled program without its text literals. What its variables are is told by the
table, and the console is not used. -/
def Program.numericSetting (program : Program) (tokens : List Token) : Setting where
  table := program.symbols
  quads := program.quads.code
  tokens := tokens.filter (·.kind ≠ .textLiteral)
  naming :=
    { kind := fun name => ((program.symbols.lookup? name).bind program.symbols.kindAt).getD .integer
      spelling := fun name =>
        ((program.symbols.lookup? name).bind fun i => (program.symbols.cells[i]?).map (·.name)).getD name
      meaning := literalValue }
  console := ⟨[], ⟨#[], []⟩⟩

variable {tokens : List Token} {kind : TokenKind} {name : Text}

theorem Syntax.Among.numeric (among : Among tokens kind name) (other : kind ≠ .textLiteral) :
    Among (tokens.filter (·.kind ≠ .textLiteral)) kind name := by
  obtain ⟨token, member, is, same⟩ := among
  refine ⟨token, List.mem_filter.mpr ⟨member, ?_⟩, is, same⟩
  rw [is]
  exact decide_eq_true other

theorem Syntax.Among.of_numeric (among : Among (tokens.filter (·.kind ≠ .textLiteral)) kind name) :
    Among tokens kind name ∧ kind ≠ .textLiteral := by
  obtain ⟨token, member, rfl, same⟩ := among
  obtain ⟨listed, other⟩ := List.mem_filter.mp member
  exact ⟨⟨token, listed, rfl, same⟩, of_decide_eq_true other⟩

/-- Number expressions have no text literals. -/
theorem Syntax.Expr.DrawnFrom.numeric {e : Expr} (drawn : e.DrawnFrom tokens) :
    e.DrawnFrom (tokens.filter (·.kind ≠ .textLiteral)) := by
  induction e with
  | literal => exact drawn.imp (·.numeric (by decide)) (·.numeric (by decide))
  | var => exact Among.numeric drawn (by decide)
  | negated _ ih => exact ih drawn
  | operation _ _ _ ih ih' => exact drawn.imp ih ih'

section Compiled

variable {options : CompileOptions} {input : Input}

theorem lexemes_classified : ∀ found ∈ lexemes options input, found.Classified options.quote := by
  intro found member
  obtain ⟨item, member, lexeme⟩ := List.mem_filterMap.mp member
  exact Lexing.unread_classified _ _ _ _ item member found lexeme

theorem mem_lexemes_of_among (among : Among (tokensOf (scanned options input)) kind name)
    (has : kind.hasSymbol = true) : ∃ (found : Lexeme) (registration : Registration),
      found ∈ lexemes options input ∧ found.registration = some registration ∧
        found.token.kind = kind ∧ found.token.text = name := by
  obtain ⟨token, member, rfl, rfl⟩ := among
  obtain ⟨item, listed, same⟩ := List.mem_map.mp ((List.takeWhile_sublist _).mem member)
  cases lexeme : item.lexeme with
  | none =>
    rw [Scanned.token, lexeme] at same
    rw [← same] at has
    cases has
  | some found =>
    rw [Scanned.token, lexeme] at same
    have same : found.token = token := same
    have proper := scanned_proper options input item listed found lexeme
    obtain ⟨registration, registers⟩ := proper.exists_registration (same ▸ has)
    exact ⟨found, registration, List.mem_filterMap.mpr ⟨item, listed, lexeme⟩, registers, by rw [same],
      by rw [same]⟩

/-- The number literals of the text, with their lexemes. -/
theorem number_lexeme (among : Among (tokensOf (scanned options input)) .integerLiteral name ∨
      Among (tokensOf (scanned options input)) .realLiteral name) :
    ∃ (found : Lexeme) (registration : Registration), found ∈ lexemes options input ∧
      found.registration = some registration ∧
      (found.token.kind = .integerLiteral ∨ found.token.kind = .realLiteral) ∧
      found.token.text = name ∧ literalValue name = registration.value := by
  have value := literalValue_of_number among
  have lexeme : ∃ (found : Lexeme) (registration : Registration), found ∈ lexemes options input ∧
      found.registration = some registration ∧
      (found.token.kind = .integerLiteral ∨ found.token.kind = .realLiteral) ∧
      found.token.text = name := by
    obtain among | among := among
    · obtain ⟨found, registration, member, registers, is, same⟩ := mem_lexemes_of_among among rfl
      exact ⟨found, registration, member, registers, .inl is, same⟩
    · obtain ⟨found, registration, member, registers, is, same⟩ := mem_lexemes_of_among among rfl
      exact ⟨found, registration, member, registers, .inr is, same⟩
  obtain ⟨found, registration, member, registers, is, rfl⟩ := lexeme
  refine ⟨found, registration, member, registers, is, rfl, ?_⟩
  obtain ⟨_, _, denoted, rfl, _, denotes⟩ :=
    (lexemes_proper options input found member).number registers is
  rw [value, show found.token.text.chars = found.token.lexeme from Text.chars_ofChars _, denotes]
  rfl

/-- Numbers and units are neither words nor temporaries. -/
theorem numeric_constant_apart {program : Program} {value : Value}
    (constant : (program.numericSetting (tokensOf (scanned options input))).Constant name value) :
    ¬ name.IsWord ∧ ∀ n, ¬ name.SameName (Rule.temporaryName n) := by
  cases constant with
  | number among =>
    obtain ⟨found, registration, member, registers, is, rfl, _⟩ :=
      number_lexeme (among.imp (·.of_numeric.1) (·.of_numeric.1))
    have proper := lexemes_proper options input found member
    obtain ⟨c, rest, fold, digit⟩ := proper.fold_of_number registers is
    exact ⟨Text.not_isWord_of_head fold (not_letter_of_digit digit), proper.not_temporary registers⟩
  | text among => exact absurd rfl among.of_numeric.2
  | unit unit => exact ⟨not_isWord_unit unit, unit_ne_temporary unit⟩

theorem compile_symbols_wellFormed : (compile options input).program.symbols.WellFormed := by
  obtain ⟨t, moves, tables⟩ := compile_moves options input
  rw [tables]
  exact (ledger_of_moves moves).symbols

theorem numericSetting_sound :
    ((compile options input).program.numericSetting (tokensOf (scanned options input))).Sound where
  wellFormed := compile_symbols_wellFormed
  words among := isWord_of_among among.of_numeric.1
  constants := numeric_constant_apart
  kinds := by
    intro name i _ found
    have found : (compile options input).program.symbols.lookup? name = some i := found
    obtain ⟨cell, stored⟩ := SymbolTable.exists_cell (compile_symbols_wellFormed.lookup_lt found)
    simp only [Program.numericSetting, found, Option.bind_some, SymbolTable.kindAt, stored,
      Option.map_some, Option.getD_some]
  names := by
    intro name i _ found
    have found : (compile options input).program.symbols.lookup? name = some i := found
    obtain ⟨cell, stored⟩ := SymbolTable.exists_cell (compile_symbols_wellFormed.lookup_lt found)
    simp only [Program.numericSetting, found, Option.bind_some, stored, Option.map_some,
      Option.getD_some, SymbolTable.name_of_cell stored]
  steady := ⟨⟨List.nodup_nil, List.forall_mem_nil _⟩, List.forall_mem_nil _⟩

/-- Whatever a machine has done with a compiled program, its memory represents what is in the cells of
the variables. -/
theorem numericSetting_represents {m last : Machine}
    (history : Machine.History (compile options input).program m) (reaches : m.rewind.Reaches last) :
    ((compile options input).program.numericSetting (tokensOf (scanned options input))).Represents
      last.program.symbols.store last.program.symbols := by
  have wf : (compile options input).program.symbols.WellFormed := compile_symbols_wellFormed
  have alike : (compile options input).program.symbols.Alike last.program.symbols :=
    history.executes.2.trans reaches.program.2
  refine ⟨alike, fun _ found => wf.holds_store alike found, fun {name value i} constant found => ?_⟩
  obtain ⟨noWord, noTemporary⟩ := numeric_constant_apart constant
  have found : (compile options input).program.symbols.lookup? name = some i := found
  obtain ⟨t, moves, tables⟩ := compile_moves options input
  have ledger := ledger_of_moves moves
  have spares : Program.Spares _ _ := history.spares (tables ▸ ledger.targets) reaches
  -- the cell is as the compiler left it
  have kept := spares.2 i (wf.not_assignable found noWord noTemporary)
  have holds : (compile options input).program.symbols.Holds i value := by
    rw [tables] at found ⊢
    cases constant with
    | number among =>
      obtain ⟨lexeme, registration, member, registers, is, rfl, same⟩ :=
        number_lexeme (among.imp (·.of_numeric.1) (·.of_numeric.1))
      change SymbolTable.Holds _ i (literalValue _)
      rw [same]
      exact ledger.number lexemes_classified member registers is found
    | text among => exact absurd rfl among.of_numeric.2
    | unit unit => exact (ledger.unit unit found).2
  obtain ⟨cell, stored, same⟩ := holds
  exact ⟨cell, kept.trans stored, same⟩

/-- The cell of an integer literal keeps its value. -/
theorem integerLiteral_holds {m last : Machine} {i : Nat}
    (history : Machine.History (compile options input).program m) (reaches : m.rewind.Reaches last)
    (among : Among (tokensOf (scanned options input)) .integerLiteral name)
    (found : (compile options input).program.symbols.lookup? name = some i) :
    last.program.symbols.Holds i (literalValue name) :=
  (numericSetting_represents history reaches).constants (.number (.inl (among.numeric (by decide)))) found

end Compiled

end MiniPascal
