import MiniPascal.Proofs.CodeNames

/-! # The name of a program

The name after `UNIT` has the first cell. The code uses this cell exactly if the statements use the name
as a variable, and they can do so only if the program declares the name too: a declaration takes the place
of the program's name.
-/

namespace MiniPascal

open Session Syntax Rule

/-! ## The first cell -/

/-- A name that is added to an empty table gets the first cell. -/
theorem SymbolTable.lookup_add_first {table : SymbolTable} (wf : table.WellFormed) (none : table.size = 0)
    (room : 0 < table.capacity) (cell : Cell) :
    (table.add cell.name cell.usage cell.value).2.lookup? cell.name = some 0 := by
  obtain ⟨i, found, _⟩ | ⟨_, full, _⟩ | ⟨_, _, added⟩ :=
    table.add_cases cell.name cell.usage cell.value
  · have := wf.lookup_lt found
    omega
  · omega
  · rw [added, SymbolTable.lookup_insert, if_pos (Text.SameName.refl _), none]

/-- The symbol after the first token is the first one. -/
def NumbersName (s : Session) (t : Session) : Prop :=
  ∀ item items cell, s.unread = item :: items → item.cell? = some cell → s.symbols.size = 0 →
    0 < s.symbols.capacity → t.symbols.lookup? cell.name = some 0

theorem program_numbersName (s : Session) : Does True program s fun _ => NumbersName s := by
  refine Does.traced (P := fun _ => True) (R := fun s _ => NumbersName s)
    (fun _ _ _ _ _ _ _ numbers => numbers) (fun _ _ _ _ => trivial) (fun s _ => ?_) trivial
  intro valid
  refine (Does.bind (Does.of_expect .kwUnit nofun) fun _ t₁ _ _ here => ?_) valid
  obtain ⟨_, rfl⟩ := here
  -- whatever comes after it, a name keeps its cell
  have rest : Does True (do
      progIdentifier
      expect .semicolon
      block
      expect .period
      let _ ← emit .stop 0 0 0) s.advance fun _ _ => True := by
    refine .bind (progIdentifier_does _) fun _ t₂ _ _ _ => ?_
    refine .bind (Does.of_expect .semicolon nofun) fun _ t₃ _ _ _ => ?_
    refine .bind (block_does _) fun _ t₄ _ _ _ => ?_
    refine .bind (Does.of_expect .period nofun) fun _ t₅ _ _ _ => ?_
    have stop : Quad.WellFormed t₅.symbols.size ⟨.stop, 0, 0, 0⟩ := ⟨rfl, nofun⟩
    exact .bind (emit_does stop nofun) fun _ _ _ _ _ => .of_pure trivial
  refine rest.mono fun _ t _ moves _ item items cell unread registers none room => ?_
  have symbols : s.advance.symbols = (s.symbols.add cell.name cell.usage cell.value).2 := by
    have := (Lexing.next_cons unread).2.2.1
    rw [registers] at this
    exact this
  refine moves.keeps (P := fun t => t.symbols.lookup? cell.name = some 0) (fun _ _ move => move.lookup) ?_
  rw [symbols]
  exact SymbolTable.lookup_add_first valid.symbols none room cell

/-- The items of the first two of some tokens. -/
theorem items_of_tokens {items : List Scanned} {first second : Token} {rest : List Token}
    (tokens : tokensOf items = first :: second :: rest) :
    ∃ item item' items', items = item :: item' :: items' ∧ item.token = first ∧ item'.token = second := by
  unfold tokensOf at tokens
  obtain _ | ⟨item, _ | ⟨item', items'⟩⟩ := items
  · cases tokens
  · rw [List.map_singleton, List.takeWhile_cons] at tokens
    split at tokens <;> cases tokens
  · rw [List.map_cons, List.takeWhile_cons] at tokens
    split at tokens
    · obtain ⟨here, later⟩ := List.cons.inj tokens
      rw [List.map_cons, List.takeWhile_cons] at later
      split at later
      · exact ⟨item, item', items', rfl, here, (List.cons.inj later).1⟩
      · cases later
    · cases tokens

variable {options : CompileOptions} {input : Input} {p : Syntax.Program} {rest : List Token}

theorem cell_of_symbol {item : Scanned} (member : item ∈ scanned options input)
    (has : item.token.kind.hasSymbol = true) :
    ∃ cell, item.cell? = some cell ∧ cell.name = item.token.text := by
  unfold Scanned.cell?
  cases lexeme : item.lexeme with
  | none =>
    rw [Scanned.token, lexeme] at has
    cases has
  | some found =>
    rw [Scanned.token, lexeme] at has ⊢
    obtain ⟨registration, registers⟩ :=
      (scanned_proper options input item member found lexeme).exists_registration has
    refine ⟨⟨found.token.text, registration.usage, registration.value⟩, ?_, rfl⟩
    rw [Option.bind_some, registers]
    rfl

theorem no_cell_of_word {item : Scanned} (member : item ∈ scanned options input)
    (plain : item.token.kind.hasSymbol = false) : item.cell? = none := by
  unfold Scanned.cell?
  cases lexeme : item.lexeme with
  | none => rfl
  | some found =>
    have token : item.token = found.token := by
      rw [Scanned.token, lexeme]
      rfl
    rw [token] at plain
    cases scanned_proper options input item member found lexeme with
    | plain _ _ registers =>
      rw [Option.bind_some, registers]
      rfl
    | identifier is | integer is | real is | text is =>
      rw [is] at plain
      cases plain

/-- The name of an accepted program has the first cell. -/
theorem lookup_name_of_accepted (accepted : (compile options input).verdict = .accepted)
    (spelled : p.Spelled True (tokensOf (scanned options input)) rest) :
    (compile options input).program.symbols.lookup? p.name = some 0 := by
  obtain ⟨t, ran, _⟩ := (accepted_iff options input).mp accepted
  have valid := (firstSession_orderly options input).valid
  obtain ⟨moves, numbers⟩ := Leads.ok (program_numbersName _ valid) ran
  obtain ⟨t', built, _⟩ := (built_of_accepted accepted).2 p rest spelled
  -- the table has room, for the name is in it
  have room : 0 < (firstSession options input).symbols.capacity := by
    obtain ⟨_, _, _, books⟩ := built.orderly
    obtain ⟨i, found⟩ := books.program p.name rfl
    have bound := books.valid.symbols.lookup_lt found
    have fits := books.valid.symbols.fits
    have same := built.moves.capacity
    omega
  generalize tokens : tokensOf (scanned options input) = all at spelled
  obtain ⟨isUnit, is, _⟩ := spelled
  obtain ⟨first, second, items, split, rfl, rfl⟩ := items_of_tokens tokens
  have unread : (Session.start options input).unread = first :: second :: items := split
  have symbols : (firstSession options input).symbols = .empty options.maxSymbols := by
    have := (Lexing.next_cons unread).2.2.1
    rw [no_cell_of_word (by rw [split]; exact List.mem_cons_self) (by rw [isUnit]; rfl)] at this
    exact this
  have left : (firstSession options input).unread = second :: items := by
    rw [unread_advance, unread]
    rfl
  have member : second ∈ scanned options input := by
    rw [split]
    exact List.mem_cons_of_mem _ List.mem_cons_self
  obtain ⟨cell, registers, named⟩ := cell_of_symbol member (by rw [is]; rfl)
  rw [tables_of_ok ran]
  change t.symbols.lookup? second.token.text = some 0
  rw [← named]
  exact numbers second items cell left registers (by rw [symbols]; rfl) room

/-! ## The name as a variable -/

/-- Only a text literal may be spelled like a word, and only between quotes that are letters. -/
theorem text_of_isWord {kind : TokenKind} {name : Text}
    (among : Among (tokensOf (scanned options input)) kind name) (is : kind.isLiteral = true)
    (word : name.IsWord) : kind = .textLiteral ∧ Scan.isLetter (upperCase options.quote) = true := by
  obtain ⟨found, registration, proper, registers, rfl, rfl⟩ :=
    lexeme_of_among among (TokenKind.hasSymbol_of_isLiteral is)
  exact proper.text_of_isWord registers is word

/-- A program marks its name, unless it declares a variable of this name. -/
theorem Syntax.Program.marks_name (p : Syntax.Program) :
    p.scope.isProgram p.name = true ∧ p.scope.kind? p.name = none ↔ ¬ p.Declares p.name := by
  have own : p.scope.isProgram p.name = true := decide_eq_true (Text.SameName.refl p.name)
  rw [Scope.kind?_eq_none, and_iff_right own]
  unfold Syntax.Program.Declares
  rw [not_exists]
  simp only [not_and]
  rfl

/-- Statements that do not use the name of the program have no use for its cell. -/
theorem Built.apart_from_name {t : Session} (built : Built options input p rest t)
    (unused : ∀ name ∈ p.body.names, ¬ p.name.SameName name)
    (unquoted : ∀ text, Among (tokensOf (scanned options input)) .textLiteral text →
      ¬ p.name.SameName text) :
    Vocabulary (tokensOf (scanned options input)) (¬ p.name.SameName ·) (¬ p.name.SameName ·)
      p.body.names 0 t.temporaries := by
  have word := isWord_of_among built.spelled.drawn.name
  have other {name : Text} (plain : ¬ name.IsWord) : ¬ p.name.SameName name :=
    fun same => plain (word.congr same)
  exact ⟨fun name used => ⟨unused name used, unused name used⟩,
    fun kind name among is same => by
      obtain ⟨rfl, _⟩ := text_of_isWord among is (word.congr same)
      exact unquoted name among same,
    ⟨other (not_isWord_unit (.inl rfl)), other (not_isWord_unit (.inr rfl))⟩,
    fun n _ _ => ⟨other (not_isWord_temporary n), other (not_isWord_temporary n)⟩⟩

/-- The name of an accepted program has the first cell. Code uses it only if the program declares the
name, or for a text between quotes that are letters. -/
theorem program_name_is_variable_only_if_declared (options : CompileOptions) (input : Input)
    (accepted : (compile options input).verdict = .accepted) :
    let program := (compile options input).program
    let tokens := tokensOf (scanned options input)
    (∃ p rest, Syntax.Program.Spelled True p tokens rest) ∧
    ∀ p rest, Syntax.Program.Spelled True p tokens rest →
      let used := ∃ q ∈ program.quads.code, 0 ∈ q.cellFields
      let named := ∃ name ∈ p.body.names, p.name.SameName name
      let quoted := ∃ text, Among tokens .textLiteral text ∧ p.name.SameName text
      program.symbols.lookup? p.name = some 0 ∧
      (program.symbols.usage 0 = .ok .program ↔ ¬ p.Declares p.name) ∧
      (named → used) ∧ (used → named ∨ quoted) ∧ (named → p.Declares p.name) ∧
      (quoted → Scan.isLetter (upperCase options.quote) = true) := by
  intro program tokens
  obtain ⟨spells, builds⟩ := built_of_accepted accepted
  refine ⟨spells, ?_⟩
  intro p rest spelled used named quoted
  have first := lookup_name_of_accepted accepted spelled
  obtain ⟨t, built, _⟩ := builds p rest spelled
  have tables : program = ⟨t.symbols, t.quads⟩ := built.tables
  obtain ⟨code, written, laid⟩ := built.code
  have wf := built.orderly.valid.symbols
  rw [built.tables] at first
  refine ⟨tables ▸ first, ?_, ?_, ?_, ?_, ?_⟩
  · obtain ⟨cell, stored⟩ := SymbolTable.exists_cell (wf.lookup_lt first)
    have usage : t.symbols.usage 0 = .ok cell.usage := SymbolTable.usage_of_cell stored
    rw [tables, usage, Except.ok.injEq, built.orderly.usage first stored, p.marks_name]
  · rintro ⟨name, member, same⟩
    obtain ⟨k, found, q, stored, uses⟩ := laid.covers name member
    rw [← t.symbols.lookup_congr same, first] at found
    cases found
    refine ⟨q, ?_, uses⟩
    rw [tables]
    change q ∈ t.code
    rw [written]
    exact List.mem_append_left _ stored
  · rintro ⟨q, member, reads⟩
    by_contra neither
    obtain ⟨unnamed, unquoted⟩ := not_or.mp neither
    rw [tables] at member
    change q ∈ t.code at member
    rw [written, List.mem_append, List.mem_singleton] at member
    obtain member | rfl := member
    · have apart := built.apart_from_name (fun name used same => unnamed ⟨name, used, same⟩)
        (fun text among same => unquoted ⟨text, among, same⟩)
      obtain ⟨name, k, other, found, same⟩ := (laid.uses built.spelled.drawn.body apart q member).cellFields 0 reads
      obtain rfl : k = 0 := by omega
      exact other (wf.sameName first found)
    · cases reads
  · rintro ⟨name, member, same⟩
    obtain ⟨entry, declared, same'⟩ := (p.allows_iff name).mp (built.allowed name member) same
    exact ⟨entry, declared, same'.trans same.symm⟩
  · rintro ⟨text, among, same⟩
    exact (text_of_isWord among rfl ((isWord_of_among spelled.drawn.name).congr same)).2

theorem usage_of_first {table : SymbolTable} {usage : Usage}
    (first : (table.cells[0]?).map (·.usage) = some usage) : table.usage 0 = .ok usage := by
  obtain ⟨cell, stored, rfl⟩ := Option.map_eq_some_iff.mp first
  exact SymbolTable.usage_of_cell stored

/-- A program that does not declare its name: the cell of the name is not used. -/
theorem undeclared_name_is_no_variable :
    let input := Input.ofString "unit p; var i: integer; begin i := 1; writeln(i) end."
    (compile {} input).verdict = .accepted ∧ ∃ p rest,
      Syntax.Program.Spelled True p (tokensOf (scanned {} input)) rest ∧ ¬ p.Declares p.name ∧
      (compile {} input).program.symbols.lookup? p.name = some 0 ∧
      ∀ name ∈ p.body.names, ¬ p.name.SameName name := by
  intro input
  obtain ⟨accepts, marked, apart⟩ : (compile {} input).verdict.isAccepted = true ∧
      ((compile {} input).program.symbols.cells[0]?).map (·.usage) = some .program ∧
      ∀ q ∈ (compile {} input).program.quads.code, 0 ∉ q.cellFields := by decide +kernel
  have accepted := Verdict.eq_accepted accepts
  obtain ⟨⟨p, rest, spelled⟩, all⟩ := program_name_is_variable_only_if_declared {} input accepted
  obtain ⟨first, marks, uses, _⟩ := all p rest spelled
  refine ⟨accepted, p, rest, spelled, marks.mp (usage_of_first marked), first, fun name member same => ?_⟩
  obtain ⟨q, stored, used⟩ := uses ⟨name, member, same⟩
  exact apart q stored used

/-- A program that declares its name and uses it as a variable is accepted. -/
theorem declared_name_is_variable :
    let input := Input.ofString "unit t; var t: integer; begin writeln(t) end."
    (compile {} input).verdict = .accepted ∧
    (compile {} input).program.symbols.usage 0 = .ok .var ∧
    ∃ q ∈ (compile {} input).program.quads.code, 0 ∈ q.cellFields := by
  intro input
  obtain ⟨accepts, declared, uses⟩ : (compile {} input).verdict.isAccepted = true ∧
      ((compile {} input).program.symbols.cells[0]?).map (·.usage) = some .var ∧
      ∃ q ∈ (compile {} input).program.quads.code, 0 ∈ q.cellFields := by decide +kernel
  exact ⟨Verdict.eq_accepted accepts, usage_of_first declared, uses⟩

end MiniPascal
