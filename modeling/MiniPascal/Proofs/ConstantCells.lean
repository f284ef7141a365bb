import MiniPascal.Proofs.Machine.Discipline
import MiniPascal.Proofs.TypedCode

/-! # Fresh temporaries and constant cells

Every cell of a table in the making was registered for a lexeme, or is one of the constants 1 and -1,
or a temporary. A temporary always gets a cell of its own, and quads store into the cells of words and
temporaries only. If the quote character is not taken for a letter, no literal is a word, so a run never
touches the cell of a literal or of one of the constants.
-/

namespace MiniPascal

open Session

/-- The kinds of tokens that stand for values. -/
def TokenKind.isLiteral : TokenKind → Bool
  | integerLiteral | realLiteral | textLiteral => true
  | _ => false

theorem TokenKind.hasSymbol_of_isLiteral {kind : TokenKind} (is : kind.isLiteral = true) :
    kind.hasSymbol = true := by
  cases kind <;> first | rfl | cases is

/-- The lexemes of a program text, as the scanner finds them. -/
def lexemes (options : CompileOptions) (input : Input) : List Lexeme :=
  (scanned options input).filterMap (·.lexeme)

/-! ## Names -/

namespace Lexeme.Proper

variable {quote : Char} {found : Lexeme} {registration : Registration}

theorem identifier_or_literal (proper : found.Proper quote)
    (registers : found.registration = some registration) :
    found.token.kind = .identifier ∨ found.token.kind.isLiteral = true := by
  cases proper with
  | identifier is => exact .inl is
  | integer is | real is | text is => exact .inr (by rw [is]; rfl)
  | plain _ _ none =>
    rw [none] at registers
    cases registers

/-- A literal that is a word is a text, and its quotes are taken for letters. -/
theorem text_of_isWord (proper : found.Proper quote) (registers : found.registration = some registration)
    (is : found.token.kind.isLiteral = true) (word : found.token.text.IsWord) :
    found.token.kind = .textLiteral ∧ Scan.isLetter (upperCase quote) = true := by
  obtain ⟨other, _⟩ | ⟨_, c, rest, fold, digit⟩ | ⟨text, inner, fold⟩ := proper.fold_cases registers
  · rw [other] at is
    cases is
  · exact absurd word (Text.not_isWord_of_head fold (not_letter_of_digit digit))
  · refine ⟨text, ?_⟩
    by_contra plain
    exact Text.not_isWord_of_head fold (eq_false_of_ne_true plain) word

theorem not_isWord (proper : found.Proper quote) (plain : Scan.isLetter (upperCase quote) = false)
    (registers : found.registration = some registration) (is : found.token.kind.isLiteral = true) :
    ¬ found.token.text.IsWord := by
  intro word
  have letter := (proper.text_of_isWord registers is word).2
  rw [plain] at letter
  cases letter

/-- A lexeme with the name of one of the constants has its value. -/
theorem value_of_unit (proper : found.Proper quote) (registers : found.registration = some registration)
    {n : Int64} (unit : n = 1 ∨ n = -1) (same : found.token.text.SameName (.ofInt n.toInt)) :
    registration.value = .int n := by
  obtain rfl | rfl := unit
  · rw [proper.one registers same]
  · exact absurd same (proper.not_minusOne registers)

end Lexeme.Proper

theorem unit_ne_temporary {n : Int64} (unit : n = 1 ∨ n = -1) (k : Nat) :
    ¬ (Text.ofInt n.toInt).SameName (Rule.temporaryName k) := by
  apply Rule.temporaryName_ne
  obtain rfl | rfl := unit
  · exact .inl rfl
  · exact .inr rfl

theorem unit_inj {m n : Int64} (left : m = 1 ∨ m = -1) (right : n = 1 ∨ n = -1)
    (same : (Text.ofInt m.toInt).SameName (.ofInt n.toInt)) : m = n := by
  obtain rfl | rfl := left <;> obtain rfl | rfl := right
  · rfl
  · exact absurd same (by decide +kernel)
  · exact absurd same (by decide +kernel)
  · rfl

/-- A cell whose name is neither a word nor that of a temporary may not be stored into. -/
theorem SymbolTable.WellFormed.not_assignable {table : SymbolTable} (wf : table.WellFormed) {name : Text}
    {i : Nat} (here : table.lookup? name = some i) (noWord : ¬ name.IsWord)
    (noTemporary : ∀ n, ¬ name.SameName (Rule.temporaryName n)) : ¬ table.Assignable i := by
  intro may
  generalize same : (i : Int) = j at may
  cases may with
  | word word again =>
    obtain rfl := Int.ofNat_inj.mp same
    exact noWord (word.congr (wf.sameName again here))
  | temporary again =>
    obtain rfl := Int.ofNat_inj.mp same
    exact noTemporary _ (wf.sameName here again)

/-! ## Where cells come from -/

/-- Where a cell of a table in the making comes from. Only the cell of a word can have changed since. -/
inductive Origin (lexemes : List Lexeme) (cell : Cell) : Prop
  | registered {found : Lexeme} {registration : Registration} (member : found ∈ lexemes)
      (registers : found.registration = some registration) (same : cell.name = found.token.text)
      (kept : ¬ cell.name.IsWord → cell.value = registration.value)
  | unit (n : Int64) (unit : n = 1 ∨ n = -1) (same : cell.name = .ofInt n.toInt)
      (value : cell.value = .int n)
  | temporary (n : Nat) (same : cell.name = Rule.temporaryName n)

/-- The cell of a word may change. -/
theorem Origin.declare {lexemes : List Lexeme} {cell : Cell} (origin : Origin lexemes cell)
    (word : cell.name.IsWord) (usage : Usage) (value : Value) :
    Origin lexemes { cell with usage, value } := by
  cases origin with
  | registered member registers same => exact .registered member registers same (absurd word)
  | unit n unit same => exact absurd (same ▸ word) (not_isWord_unit unit)
  | temporary n same => exact .temporary n same

/-- The cell that a quad stores into was registered for an identifier, or it is a temporary. -/
inductive Destination (lexemes : List Lexeme) (table : SymbolTable) : Int → Prop
  | identifier {i : Nat} {cell : Cell} {found : Lexeme} (here : table.cells[i]? = some cell)
      (member : found ∈ lexemes) (is : found.token.kind = .identifier)
      (same : cell.name = found.token.text) : Destination lexemes table i
  | temporary {i : Nat} {cell : Cell} (n : Nat) (here : table.cells[i]? = some cell)
      (same : cell.name = Rule.temporaryName n) : Destination lexemes table i

theorem Session.Own.origin {s : Session} {name : Text} {value : Value} (own : s.Own name value)
    (lexemes : List Lexeme) : Origin lexemes ⟨name, .constant, value⟩ := by
  obtain ⟨n, unit, rfl, rfl⟩ | ⟨rfl, _⟩ := own
  · exact .unit n unit rfl rfl
  · exact .temporary _ rfl

namespace Session

/-- The cells and quads of a session with the given lexemes. -/
structure Ledger (quote : Char) (lexemes : List Lexeme) (s : Session) : Prop where
  proper : ∀ found ∈ lexemes, found.Proper quote
  unread : ∀ item ∈ s.unread, ∀ found, item.lexeme = some found → found ∈ lexemes
  symbols : s.symbols.WellFormed
  cells : ∀ (i : Nat) cell, s.symbols.cells[i]? = some cell → Origin lexemes cell
  fresh : ∀ n, s.temporaries < n → s.symbols.lookup? (Rule.temporaryName n) = none
  targets : ∀ q ∈ s.code, q.op.stores = true → s.symbols.Assignable q.c

variable {quote : Char} {lexemes : List Lexeme} {declaring : Prop} {s t : Session}

theorem Move.targets (move : Move declaring s t)
    (targets : ∀ q ∈ s.code, q.op.stores = true → s.symbols.Assignable q.c) :
    ∀ q ∈ t.code, q.op.stores = true → t.symbols.Assignable q.c := by
  intro q member stores
  refine SymbolTable.Assignable.later ?_ fun _ _ => move.lookup
  obtain old | ⟨_, target⟩ | ⟨old, _, jump, c, rfl⟩ := move.mem_code member
  · exact targets q old stores
  · exact target stores
  · change old.op.stores = true at stores
    generalize old.op = op at jump stores
    cases op <;> cases jump <;> cases stores

/-- The ledger of a session whose table got a cell for a name that is new. -/
theorem Ledger.insert (ledger : s.Ledger quote lexemes) {cell : Cell}
    (origin : Origin lexemes cell) (new : s.symbols.lookup? cell.name = none)
    (room : s.symbols.size ≠ s.symbols.capacity)
    (later : ∀ n, s.temporaries < n → ¬ (Rule.temporaryName n).SameName cell.name) :
    Ledger quote lexemes { s with symbols := s.symbols.insert cell } := by
  refine ⟨ledger.proper, ledger.unread, ledger.symbols.insert new room, fun i other here => ?_,
    fun n le => ?_, fun q member stores => ?_⟩
  · change (s.symbols.insert cell).cells[i]? = some other at here
    rw [SymbolTable.cells_insert] at here
    split at here
    · cases here
      exact origin
    · exact ledger.cells i other here
  · change (s.symbols.insert cell).lookup? _ = none
    rw [SymbolTable.lookup_insert, if_neg (later n le)]
    exact ledger.fresh n le
  · exact (ledger.targets q member stores).later fun _ _ =>
      (SymbolTable.extends_insert new).lookup _ _

theorem Ledger.advance (ledger : s.Ledger quote lexemes) : s.advance.Ledger quote lexemes := by
  have unread : ∀ item ∈ s.advance.unread, ∀ found, item.lexeme = some found → found ∈ lexemes := by
    intro item member
    rw [unread_advance] at member
    exact ledger.unread item (List.mem_of_mem_drop member)
  obtain same | ⟨item, items, cell, first, registers, new, room, added⟩ := s.symbols_advance
  · refine ⟨ledger.proper, unread, ?_, ?_, ?_, ?_⟩
    all_goals rw [same]
    · exact ledger.symbols
    · exact ledger.cells
    · exact ledger.fresh
    · exact ledger.targets
  · obtain ⟨found, lexeme, here⟩ := Option.bind_eq_some_iff.mp registers
    obtain ⟨registration, registered, rfl⟩ := Option.map_eq_some_iff.mp here
    have member : found ∈ lexemes := ledger.unread item (by simp [first]) found lexeme
    have proper := ledger.proper found member
    have grown := ledger.insert (.registered member registered rfl fun _ => rfl) new room
      fun n _ same => proper.not_temporary registered n same.symm
    refine ⟨ledger.proper, unread, ?_, ?_, ?_, ?_⟩
    all_goals rw [added]
    · exact grown.symbols
    · exact grown.cells
    · exact grown.fresh
    · exact grown.targets

theorem Move.ledger (move : Move declaring s t) (ledger : s.Ledger quote lexemes) :
    t.Ledger quote lexemes := by
  have symbols := move.wellFormed ledger.symbols
  have targets := move.targets ledger.targets
  cases move with
  | advance => exact ledger.advance
  | symbol name value own new room => exact ledger.insert (own.origin _) new room own.later
  | mint =>
    exact ⟨ledger.proper, ledger.unread, symbols, ledger.cells,
      fun n le => ledger.fresh n (Nat.lt_of_succ_lt le), targets⟩
  | @declare _ name i cell usage value word found here =>
    refine ⟨ledger.proper, ledger.unread, symbols, fun j other there => ?_, ledger.fresh, targets⟩
    change (s.symbols.modify i usage value).cells[j]? = some other at there
    rw [SymbolTable.cells_modify] at there
    split at there
    · rename_i same
      subst same
      obtain ⟨old, stored, rfl⟩ := Option.map_eq_some_iff.mp there
      obtain ⟨_, again, same⟩ := (ledger.symbols.lookup_iff name i).mp found
      rw [stored] at again
      cases again
      exact (ledger.cells i old stored).declare (word.congr same.symm) usage value
    · exact ledger.cells j other there
  | observe | fail | exhaust | emit | patch =>
    exact ⟨ledger.proper, ledger.unread, symbols, ledger.cells, ledger.fresh, targets⟩

/-- A temporary gets the first cell that was not there before. -/
theorem Ledger.temporary (ledger : s.Ledger quote lexemes) (kind : Kind) :
    Leads (Rule.temporary kind) s (fun i t => i = s.symbols.size ∧
      t.symbols = s.symbols.insert ⟨Rule.temporaryName t.temporaries, .constant, .zero kind⟩)
      fun _ _ => True := by
  have fresh := ledger.fresh _ (Nat.lt_succ_self s.temporaries)
  refine Leads.modify_bind (.get_bind (.get_bind ?_))
  obtain ⟨i, found, _⟩ | ⟨_, _, added⟩ | ⟨_, _, added⟩ :=
    s.symbols.add_cases (Rule.temporaryName (s.temporaries + 1)) .constant (.zero kind)
  · rw [fresh] at found
    cases found
  · rw [added]
    exact Leads.modify_bind (.modify_bind (.of_throw trivial))
  · rw [added]
    exact Leads.modify_bind (.of_pure ⟨rfl, rfl⟩)

/-- Only cells of identifiers and temporaries may be stored into. -/
theorem Ledger.destination (ledger : s.Ledger quote lexemes)
    (plain : Scan.isLetter (upperCase quote) = false) {i : Int} (may : s.symbols.Assignable i) :
    Destination lexemes s.symbols i := by
  cases may with
  | @word name i word found =>
    obtain ⟨cell, here, same⟩ := (ledger.symbols.lookup_iff name i).mp found
    have word := word.congr same.symm
    cases ledger.cells i cell here with
    | registered member registers same =>
      have proper := ledger.proper _ member
      obtain is | is := proper.identifier_or_literal registers
      · exact .identifier here member is same
      · exact absurd (same ▸ word) (proper.not_isWord plain registers is)
    | unit n unit same => exact absurd (same ▸ word) (not_isWord_unit unit)
    | temporary n same => exact absurd (same ▸ word) (not_isWord_temporary n)
  | @temporary n i found =>
    obtain ⟨cell, here, same⟩ := (ledger.symbols.lookup_iff _ i).mp found
    cases ledger.cells i cell here with
    | registered member registers name =>
      rw [name] at same
      exact absurd same ((ledger.proper _ member).not_temporary registers n)
    | unit m unit name =>
      rw [name] at same
      exact absurd same (unit_ne_temporary unit n)
    | temporary m name => exact .temporary m here name

/-- No quad may store into a literal. -/
theorem Ledger.literal (ledger : s.Ledger quote lexemes)
    (plain : Scan.isLetter (upperCase quote) = false) {found : Lexeme} (member : found ∈ lexemes)
    (is : found.token.kind.isLiteral = true) {i : Nat}
    (here : s.symbols.lookup? found.token.text = some i) : ¬ s.symbols.Assignable i := by
  have proper := ledger.proper found member
  obtain ⟨registration, registers⟩ := proper.exists_registration (TokenKind.hasSymbol_of_isLiteral is)
  exact ledger.symbols.not_assignable here (proper.not_isWord plain registers is)
    (proper.not_temporary registers)

/-- No quad may store into one of the constants 1 and -1, and these have their values. -/
theorem Ledger.unit (ledger : s.Ledger quote lexemes) {n : Int64} (unit : n = 1 ∨ n = -1) {i : Nat}
    (here : s.symbols.lookup? (.ofInt n.toInt) = some i) :
    ¬ s.symbols.Assignable i ∧ ∃ cell, s.symbols.cells[i]? = some cell ∧ cell.value = .int n := by
  have other := unit_ne_temporary unit
  refine ⟨ledger.symbols.not_assignable here (not_isWord_unit unit) other, ?_⟩
  obtain ⟨cell, stored, same⟩ := (ledger.symbols.lookup_iff _ i).mp here
  refine ⟨cell, stored, ?_⟩
  cases ledger.cells i cell stored with
  | registered member registers name kept =>
    have value := (ledger.proper _ member).value_of_unit registers unit (name ▸ same)
    rw [kept fun word => not_isWord_unit unit (word.congr same), value]
  | unit m unit' name value =>
    rw [name] at same
    rw [value, unit_inj unit' unit same]
  | temporary k name =>
    rw [name] at same
    exact absurd same.symm (other k)

end Session

/-! ## Compiled programs -/

variable (options : CompileOptions) (input : Input)

theorem lexemes_proper : ∀ found ∈ lexemes options input, found.Proper options.quote := by
  intro found member
  obtain ⟨item, member, lexeme⟩ := List.mem_filterMap.mp member
  exact scanned_proper options input item member found lexeme

theorem start_ledger :
    (Session.start options input).Ledger options.quote (lexemes options input) where
  proper := lexemes_proper options input
  unread item member found lexeme := List.mem_filterMap.mpr ⟨item, member, lexeme⟩
  symbols := SymbolTable.wellFormed_empty _
  cells i cell here := by simp [Session.start, Lexing.start, SymbolTable.empty] at here
  fresh n _ := by simp [Session.start, Lexing.start, SymbolTable.empty, SymbolTable.lookup?]
  targets q member := by simp [Session.start, Session.code, QuadTable.code, QuadTable.empty] at member

variable {options input}

theorem ledger_of_moves {s : Session} (moves : Moves True (firstSession options input) s) :
    s.Ledger options.quote (lexemes options input) :=
  moves.keeps (fun _ _ move => move.ledger) (start_ledger options input).advance

/-! ## Runs -/

/-- A state of a program in which all cells are as they were that may not be stored into. -/
def Program.Spares (program now : Program) : Prop :=
  now.quads = program.quads ∧
    ∀ i : Nat, ¬ program.symbols.Assignable i → now.symbols.cells[i]? = program.symbols.cells[i]?

theorem Machine.Steps.spares {program : Program} {m after : Machine} (steps : m.Steps after)
    (targets : ∀ q ∈ program.quads.code, q.op.stores = true → program.symbols.Assignable q.c)
    (spares : program.Spares m.program) : program.Spares after.program := by
  refine ⟨steps.program.1.trans spares.1, fun i apart => ?_⟩
  rw [← spares.2 i apart]
  have member : m.next ∈ program.quads.code := spares.1 ▸ List.mem_of_getElem? steps.started.code
  have changes := steps.changes
  generalize after.program.symbols = memory at changes
  cases changes with
  | nothing => rfl
  | @value j cell value stores names here =>
    rw [SymbolTable.cells_modify, if_neg]
    rintro rfl
    exact apart (names ▸ targets _ member stores)

theorem Machine.History.spares {program : Program} {m last : Machine} (history : History program m)
    (targets : ∀ q ∈ program.quads.code, q.op.stores = true → program.symbols.Assignable q.c)
    (reaches : m.rewind.Reaches last) : program.Spares last.program := by
  have start : program.Spares m.rewind.program :=
    history.keeps (fun _ _ steps => steps.spares targets) ⟨rfl, fun _ _ => rfl⟩
  exact Reaches.keeps reaches (P := fun m => program.Spares m.program)
    (fun _ _ steps => steps.spares targets) start

/-- Quads store into cells of identifiers and temporaries only, wherever compiling has got to. So in
every state of a run the literals and the units are as they were compiled. -/
theorem constants_are_never_overwritten (options : CompileOptions) (input : Input)
    (plain : Scan.isLetter (upperCase options.quote) = false) :
    let program := (compile options input).program
    (∃ t, Moves True (firstSession options input) t ∧ program = ⟨t.symbols, t.quads⟩) ∧
    (∀ s, Moves True (firstSession options input) s →
      (∀ kind i t, Rule.temporary kind s = .ok i t → s.symbols.cells[i]? = none ∧
        i = s.symbols.size ∧
        t.symbols = s.symbols.insert ⟨Rule.temporaryName t.temporaries, .constant, .zero kind⟩) ∧
      ∀ q ∈ s.code, q.op.stores = true → Destination (lexemes options input) s.symbols q.c) ∧
    ∀ m, Machine.History program m → ∀ last, m.rewind.Reaches last →
      (∀ found ∈ lexemes options input, found.token.kind.isLiteral = true → ∀ i,
        program.symbols.lookup? found.token.text = some i →
          last.program.symbols.cells[i]? = program.symbols.cells[i]?) ∧
      ∀ n : Int64, n = 1 ∨ n = -1 → ∀ i, program.symbols.lookup? (.ofInt n.toInt) = some i →
        ∃ cell, cell.value = .int n ∧ program.symbols.cells[i]? = some cell ∧
          last.program.symbols.cells[i]? = some cell := by
  intro program
  obtain ⟨t, moves, tables⟩ := compile_moves options input
  refine ⟨⟨t, moves, tables⟩, fun s moves => ?_, fun m history last reaches => ?_⟩
  · have ledger := ledger_of_moves moves
    refine ⟨fun kind i t made => ?_, fun q member stores => ?_⟩
    · obtain ⟨rfl, symbols⟩ := Leads.ok (ledger.temporary kind) made
      exact ⟨Array.getElem?_eq_none (Nat.le_refl _), rfl, symbols⟩
    · exact ledger.destination plain (ledger.targets q member stores)
  · have ledger := ledger_of_moves moves
    have same : program = ⟨t.symbols, t.quads⟩ := tables
    rw [same] at history ⊢
    have spares := history.spares ledger.targets reaches
    refine ⟨fun found member is i here => ?_, fun n unit i here => ?_⟩
    · exact spares.2 i (ledger.literal plain member is here)
    · obtain ⟨apart, cell, stored, value⟩ := ledger.unit unit here
      exact ⟨cell, value, stored, (spares.2 i apart).trans stored⟩

/-- Whether a computation returned a value. -/
def returned {ε σ α : Type} : EStateM.Result ε σ α → Bool
  | .ok .. => true
  | .error .. => false

/-- A counter goes down by the constant -1, which has the cell 4, while the text in the cell 7 is
written. -/
theorem countdown_keeps_its_step :
    let options : CompileOptions := { quote := '#' }
    let input := Input.ofString "unit p; var i: integer; begin
      for i := 3 downto 1 do begin writeln(#i#); writeln(i * 1) end end."
    let program := (compile options input).program
    Scan.isLetter (upperCase options.quote) = false ∧
    (∃ i t, Rule.temporary .real (firstSession options input) = .ok i t ∧
      (firstSession options input).symbols.cells[i]? = none) ∧
    (∃ q ∈ program.quads.code, Destination (lexemes options input) program.symbols q.c) ∧
    ∀ m, Machine.History program m → ∀ last, m.rewind.Reaches last →
      last.program.symbols.cells[7]? = program.symbols.cells[7]? ∧
      ∃ cell, cell.value = .int (-1) ∧ last.program.symbols.cells[4]? = some cell := by
  intro options input program
  have plain : Scan.isLetter (upperCase options.quote) = false := by decide +kernel
  obtain ⟨stores, text, step, made⟩ : (∃ q ∈ program.quads.code, q.op.stores = true) ∧
      (∃ found ∈ lexemes options input, found.token.kind.isLiteral = true ∧
        program.symbols.lookup? found.token.text = some 7) ∧
      program.symbols.lookup? (.ofInt (-1 : Int64).toInt) = some 4 ∧
      returned (Rule.temporary .real (firstSession options input)) = true := by decide +kernel
  obtain ⟨⟨t, moves, tables⟩, compiling, running⟩ := constants_are_never_overwritten options input plain
  refine ⟨plain, ?_, ?_, fun m history last reaches => ?_⟩
  · cases ran : Rule.temporary .real (firstSession options input) with
    | ok i t => exact ⟨i, t, rfl, ((compiling _ .refl).1 .real i t ran).1⟩
    | error =>
      rw [ran] at made
      cases made
  · obtain ⟨q, member, stores⟩ := stores
    have same : program = ⟨t.symbols, t.quads⟩ := tables
    rw [same] at member ⊢
    exact ⟨q, member, (compiling t moves).2 q member stores⟩
  · obtain ⟨literals, units⟩ := running m history last reaches
    obtain ⟨found, member, is, here⟩ := text
    obtain ⟨cell, value, _, now⟩ := units (-1) (.inr rfl) 4 step
    refine ⟨?_, cell, value, now⟩
    rw [literals found member is 7 here]

end MiniPascal
