import MiniPascal.Proofs.Compiler.Acceptance
import MiniPascal.Proofs.Numerals

/-! # What the cells of an accepted program hold

Under the usual quote character the first character of a name tells what the name is: a letter starts
an identifier, a digit a number, the quote a text literal, and the compiler's own -1 and temporaries
start like no lexeme does. So the cell of a variable holds the zero of its kind, and the cell of a number
holds that number.
-/

namespace MiniPascal

open Session Syntax

/-! ## Lexemes by their names -/

namespace Lexeme.Proper

variable {quote : Char} {found : Lexeme} {registration : Registration}

theorem kind_of_isWord (proper : found.Proper usualQuote)
    (registers : found.registration = some registration) (word : found.token.text.IsWord) :
    found.token.kind = .identifier := by
  obtain ⟨is, _⟩ | ⟨_, c, rest, fold, digit⟩ | ⟨_, inner, fold⟩ := proper.fold_cases registers
  · exact is
  · exact absurd word (Text.not_isWord_of_head fold (not_letter_of_digit digit))
  · exact absurd word (Text.not_isWord_of_head fold (by decide +kernel))

/-- A lexeme whose name starts with a letter is an identifier. -/
theorem identifier_of_isWord (proper : found.Proper usualQuote)
    (registers : found.registration = some registration) (word : found.token.text.IsWord) :
    registration = ⟨.var, .int 0⟩ := by
  have is := proper.kind_of_isWord registers word
  cases proper with
  | identifier _ here =>
    rw [here] at registers
    exact (Option.some.inj registers).symm
  | integer other | real other | text other =>
    rw [other] at is
    cases is
  | plain other =>
    rw [is] at other
    cases other

/-- A lexeme whose name is that of a number is a number. -/
theorem number_of_digit {c : Char} {rest : List Char} (proper : found.Proper usualQuote)
    (registers : found.registration = some registration)
    (fold : found.token.text.fold = c :: rest) (digit : isDigit c = true) :
    found.token.kind = .integerLiteral ∨ found.token.kind = .realLiteral := by
  obtain ⟨_, d, _, here, letter⟩ | ⟨is, _⟩ | ⟨_, inner, here⟩ := proper.fold_cases registers
  · rw [fold] at here
    rw [← (List.cons.inj here).1, not_letter_of_digit digit] at letter
    cases letter
  · exact is
  · rw [fold] at here
    rw [(List.cons.inj here).1] at digit
    exact absurd digit (by decide +kernel)

theorem kind_of_quote {inner : List Char} (proper : found.Proper usualQuote)
    (registers : found.registration = some registration)
    (fold : found.token.text.fold = upperCase usualQuote :: inner) :
    found.token.kind = .textLiteral := by
  obtain ⟨_, c, rest, fold', letter⟩ | ⟨_, c, rest, fold', digit⟩ | ⟨is, _⟩ :=
    proper.fold_cases registers
  · rw [fold] at fold'
    rw [← (List.cons.inj fold').1] at letter
    exact absurd letter (by decide +kernel)
  · rw [fold] at fold'
    rw [← (List.cons.inj fold').1] at digit
    exact absurd digit (by decide +kernel)
  · exact is

theorem fold_of_text (proper : found.Proper quote) (is : found.token.kind = .textLiteral) :
    ∃ inner, found.token.text.fold = upperCase quote :: inner := by
  cases proper with
  | text _ _ encloses =>
    rw [Token.text, Text.fold_ofChars, encloses]
    exact ⟨_, rfl⟩
  | identifier other | integer other | real other =>
    rw [other] at is
    cases is
  | plain other =>
    rw [is] at other
    cases other

/-- What a text literal registers is what stands between its quotes. -/
theorem text_value (proper : found.Proper usualQuote) (registers : found.registration = some registration)
    (is : found.token.kind = .textLiteral) :
    ∃ text, registration = ⟨.constant, .text text⟩ ∧ literalValue found.token.text = .text text := by
  cases proper with
  | identifier other | integer other | real other =>
    rw [other] at is
    cases is
  | plain _ _ none =>
    rw [none] at registers
    cases registers
  | @text inner _ here encloses =>
    rw [here] at registers
    cases registers
    have chars : found.token.text.chars = usualQuote :: inner ++ [usualQuote] := by
      rw [Token.text, Text.chars_ofChars, encloses]
    refine ⟨.ofChars inner, rfl, ?_⟩
    rw [literalValue, chars]
    simp

end Lexeme.Proper

/-! ## Cells and lexemes -/

variable {options : CompileOptions} {input : Input} {p : Syntax.Program} {rest : List Token} {t : Session}
variable {name : Text} {i : Nat}

/-- A token is the token of a lexeme that the scanner found. -/
theorem lexeme_of_among {kind : TokenKind} (among : Among (tokensOf (scanned options input)) kind name)
    (has : kind.hasSymbol = true) : ∃ (found : Lexeme) (registration : Registration),
      found.Proper options.quote ∧ found.registration = some registration ∧
        found.token.kind = kind ∧ found.token.text = name := by
  obtain ⟨token, member, rfl, rfl⟩ := among
  have listed := (List.takeWhile_sublist _).mem member
  obtain ⟨item, member, same⟩ := List.mem_map.mp listed
  cases lexeme : item.lexeme with
  | none =>
    rw [Scanned.token, lexeme] at same
    rw [← same] at has
    cases has
  | some found =>
    rw [Scanned.token, lexeme] at same
    have proper := scanned_proper options input item member found lexeme
    have same : found.token = token := same
    obtain ⟨registration, registers⟩ := proper.exists_registration (same ▸ has)
    exact ⟨found, registration, proper, registers, by rw [same], by rw [same]⟩

theorem number_of_among (among : Among (tokensOf (scanned options input)) .integerLiteral name ∨
      Among (tokensOf (scanned options input)) .realLiteral name) :
    ∃ (found : Lexeme) (registration : Registration), found.Proper options.quote ∧
      found.registration = some registration ∧
      (found.token.kind = .integerLiteral ∨ found.token.kind = .realLiteral) ∧
      found.token.text = name := by
  obtain among | among := among
  · obtain ⟨found, registration, proper, registers, is, same⟩ := lexeme_of_among among rfl
    exact ⟨found, registration, proper, registers, .inl is, same⟩
  · obtain ⟨found, registration, proper, registers, is, same⟩ := lexeme_of_among among rfl
    exact ⟨found, registration, proper, registers, .inr is, same⟩

theorem literalValue_of_number (among : Among (tokensOf (scanned options input)) .integerLiteral name ∨
      Among (tokensOf (scanned options input)) .realLiteral name) :
    literalValue name = (numberValue? name.chars).getD (.int 0) := by
  obtain ⟨found, registration, proper, registers, is, rfl⟩ := number_of_among among
  obtain ⟨⟨c, rest, starts, digit⟩, _⟩ := proper.number registers is
  have other : c ≠ usualQuote := by
    rintro rfl
    exact absurd digit (by decide)
  rw [literalValue, Token.text, Text.chars_ofChars, starts, if_neg]
  rw [List.head?_cons]
  exact fun same => other (Option.some.inj same)

/-- No text literal has the name of a number. -/
theorem firstSpelling_of_number (usual : options.quote = usualQuote)
    (among : Among (tokensOf (scanned options input)) .integerLiteral name ∨
      Among (tokensOf (scanned options input)) .realLiteral name) :
    firstSpelling (tokensOf (scanned options input)) .textLiteral name = name := by
  obtain ⟨found, registration, proper, registers, is, rfl⟩ := number_of_among among
  unfold firstSpelling
  cases finds : List.find? _ _ with
  | none => rfl
  | some token =>
    have holds := List.find?_some finds
    rw [decide_eq_true_eq] at holds
    obtain ⟨text, _, proper', _, quoted, same⟩ :=
      lexeme_of_among ⟨token, List.mem_of_find?_eq_some finds, holds.1, rfl⟩ rfl
    obtain ⟨inner, fold⟩ := proper'.fold_of_text quoted
    rw [same, usual] at fold
    have text := (usual ▸ proper).kind_of_quote registers (Eq.trans (Eq.symm holds.2) fold)
    rw [text] at is
    rcases is with is | is <;> cases is

theorem lexeme_of_firstCell {base : Cell} (first : firstCell? (scanned options input) name = some base) :
    ∃ (found : Lexeme) (registration : Registration), found.Proper options.quote ∧
      found.registration = some registration ∧ base = ⟨found.token.text, registration.usage, registration.value⟩ := by
  obtain ⟨item, member, registers⟩ := List.mem_filterMap.mp (List.mem_of_find?_eq_some first)
  obtain ⟨found, lexeme, here⟩ := Option.bind_eq_some_iff.mp registers
  obtain ⟨registration, registered, rfl⟩ := Option.map_eq_some_iff.mp here
  exact ⟨found, registration, scanned_proper options input item member found lexeme, registered, rfl⟩

theorem firstCell?_congr (items : List Scanned) {first second : Text} (same : first.SameName second) :
    firstCell? items first = firstCell? items second := by
  have alike : (fun cell : Cell => decide (cell.name.SameName first)) =
      fun cell => decide (cell.name.SameName second) :=
    funext fun _ => decide_eq_decide.mpr ⟨fun left => left.trans same, fun left => left.trans same.symm⟩
  unfold firstCell?
  rw [alike]

/-- The first symbol of a name comes with its first token, if the name can only be of one kind. -/
theorem firstCell?_of_among {quote : Char} {items : List Scanned} {kind : TokenKind}
    (proper : ∀ item ∈ items, ∀ found, item.lexeme = some found → found.Proper quote)
    (has : kind.hasSymbol = true)
    (only : ∀ (found : Lexeme) (registration : Registration), found.Proper quote →
      found.registration = some registration → found.token.text.SameName name → found.token.kind = kind)
    (among : Among (tokensOf items) kind name) :
    ∃ (found : Lexeme) (registration : Registration), found.Proper quote ∧
      found.registration = some registration ∧
      firstCell? items name = some ⟨found.token.text, registration.usage, registration.value⟩ ∧
      (tokensOf items).find? (fun t => t.kind = kind ∧ t.text.SameName name) = some found.token := by
  induction items with
  | nil =>
    obtain ⟨t, member, _⟩ := among
    cases member
  | cons item items ih =>
    obtain ⟨t, member, is, same⟩ := among
    have more : item.token.kind ≠ .endOfInput := by
      intro ends
      simp [tokensOf, ends] at member
    have split : tokensOf (item :: items) = item.token :: tokensOf items := by simp [tokensOf, more]
    obtain ⟨found, lexeme⟩ : ∃ found, item.lexeme = some found := by
      cases lexeme : item.lexeme with
      | none =>
        rw [Scanned.token, lexeme] at more
        exact absurd rfl more
      | some found => exact ⟨found, rfl⟩
    have token : item.token = found.token := by rw [Scanned.token, lexeme]; rfl
    have proper' := proper item List.mem_cons_self found lexeme
    rw [split] at member ⊢
    by_cases here : item.token.kind = kind ∧ item.token.text.SameName name
    · rw [token] at here
      obtain ⟨registration, registers⟩ := proper'.exists_registration (here.1 ▸ has)
      have cell : item.cell? = some ⟨found.token.text, registration.usage, registration.value⟩ := by
        rw [Scanned.cell?, lexeme, Option.bind_some, registers, Option.map_some]
      refine ⟨found, registration, proper', registers, ?_, ?_⟩
      · rw [firstCell?, List.filterMap_cons_some cell, List.find?_cons_of_pos (by simpa using here.2)]
      · rw [token, List.find?_cons_of_pos (by simpa using here)]
    · have later : t ∈ tokensOf items := by
        obtain rfl | later := List.mem_cons.mp member
        · exact absurd ⟨is, congrArg Text.fold same⟩ here
        · exact later
      obtain ⟨first, registration, proper'', registers, cell, finds⟩ :=
        ih (fun item member => proper item (List.mem_cons_of_mem _ member)) ⟨t, later, is, same⟩
      refine ⟨first, registration, proper'', registers, ?_, ?_⟩
      · rw [← cell, firstCell?, firstCell?]
        cases own : item.cell? with
        | none => rw [List.filterMap_cons_none own]
        | some other =>
          rw [List.filterMap_cons_some own, List.find?_cons_of_neg]
          rw [Scanned.cell?, lexeme, Option.bind_some] at own
          obtain ⟨_, registers', rfl⟩ := Option.map_eq_some_iff.mp own
          rw [decide_eq_true_eq]
          intro same'
          rw [token] at here
          exact here ⟨only found _ proper' registers' same', same'⟩
      · rw [List.find?_cons_of_neg (by simpa using here)]
        exact finds

theorem isWord_of_among (among : Among (tokensOf (scanned options input)) .identifier name) :
    name.IsWord := by
  obtain ⟨found, registration, proper, registers, is, rfl⟩ := lexeme_of_among among rfl
  exact proper.isWord registers is

/-- No token with a symbol is spelled like a temporary. -/
theorem not_temporary_of_among {kind : TokenKind}
    (among : Among (tokensOf (scanned options input)) kind name) (has : kind.hasSymbol = true) (n : Nat) :
    ¬ name.SameName (Rule.temporaryName n) := by
  obtain ⟨found, registration, proper, registers, _, rfl⟩ := lexeme_of_among among has
  exact proper.not_temporary registers n

namespace Built

/-- Where the cell of a name comes from. -/
theorem origin (built : Built options input p rest t) (found : t.symbols.lookup? name = some i) :
    ∃ base, t.symbols.cells[i]? = some (p.scope.adapt base) ∧ base.name.SameName name ∧
      Base (scanned options input) t.temporaries base := by
  obtain ⟨_, before, split, books⟩ := built.orderly
  obtain ⟨cell, stored, same⟩ := (books.valid.symbols.lookup_iff name i).mp found
  obtain ⟨base, origin, rfl⟩ := books.cells i cell stored
  rw [Scope.name_adapt] at same
  refine ⟨base, stored, same, ?_⟩
  rw [split]
  exact origin.mono _ (Nat.le_refl _)

/-- The scope changes nothing but words. -/
theorem adapt_of_not_isWord (built : Built options input p rest t) {base : Cell}
    (plain : ¬ base.name.IsWord) : p.scope.adapt base = base := by
  have drawn := built.spelled.drawn
  have undeclared : p.scope.kind? base.name = none := by
    rw [Scope.kind?_eq_none]
    intro entry member same
    exact plain ((isWord_of_among (drawn.declared entry member)).congr same)
  have other : p.scope.isProgram base.name = false := by
    change decide (p.name.SameName base.name) = false
    rw [decide_eq_false_iff_not]
    exact fun same => plain ((isWord_of_among drawn.name).congr same)
  simp [Scope.adapt, undeclared, other]

/-- The cell of a variable has the name that was read first and the zero of its kind. -/
theorem word (built : Built options input p rest t) (usual : options.quote = usualQuote)
    (word : name.IsWord) (found : t.symbols.lookup? name = some i) :
    ∃ base cell, firstCell? (scanned options input) name = some base ∧
      t.symbols.cells[i]? = some cell ∧ cell.name = base.name ∧
        cell.value = .zero ((p.scope.kind? name).getD .integer) := by
  obtain ⟨base, stored, same, origin⟩ := built.origin found
  have word := word.congr same.symm
  cases origin with
  | scanned first =>
    refine ⟨base, _, firstCell?_congr _ same ▸ first, stored, Scope.name_adapt .., ?_⟩
    obtain ⟨lexeme, registration, proper, registers, rfl⟩ := lexeme_of_firstCell first
    rw [usual] at proper
    cases proper.identifier_of_isWord registers word
    rw [← p.scope.kind?_congr same, Scope.adapt]
    split
    · rename_i kind
      rw [kind]
      rfl
    · rename_i none
      rw [none]
      split <;> rfl
  | unit n unit is =>
    subst is
    exact absurd word (not_isWord_unit unit)
  | temporary n kind _ is =>
    subst is
    exact absurd word (not_isWord_temporary n)

/-- The cell of a number holds that number. -/
theorem number (built : Built options input p rest t) (usual : options.quote = usualQuote)
    (among : Among (tokensOf (scanned options input)) .integerLiteral name ∨
      Among (tokensOf (scanned options input)) .realLiteral name)
    (found : t.symbols.lookup? name = some i) :
    ∃ cell, t.symbols.cells[i]? = some cell ∧ cell.value.kind ≠ .text ∧
      numberValue? name.chars = some cell.value := by
  obtain ⟨lexeme, registration, proper, registers, is, rfl⟩ := number_of_among among
  obtain ⟨⟨c, more, starts, digit⟩, _, value, rfl, number, denotes⟩ := proper.number registers is
  have fold : lexeme.token.text.fold = c :: more.map upperCase := by
    rw [Token.text, Text.fold_ofChars, starts, List.map_cons, upperCase_digit digit]
  rw [show lexeme.token.text.chars = lexeme.token.lexeme from Text.chars_ofChars _]
  obtain ⟨base, stored, same, origin⟩ := built.origin found
  have fold' : base.name.fold = c :: more.map upperCase := Eq.trans same fold
  rw [built.adapt_of_not_isWord (Text.not_isWord_of_head fold' (not_letter_of_digit digit))] at stored
  -- whichever symbol was first, its value is that of the number
  have held : base.value = value := by
    cases origin with
    | scanned first =>
      obtain ⟨other, _, proper', registers', rfl⟩ := lexeme_of_firstCell first
      have is' := (usual ▸ proper').number_of_digit registers' fold' digit
      cases proper'.same_number proper registers' registers is' is same
      rfl
    | unit n unit own =>
      rw [own] at same
      obtain rfl | rfl := unit
      · cases proper.one registers same.symm
        rw [own]
      · exact absurd same.symm (proper.not_minusOne registers)
    | temporary n kind _ own =>
      rw [own] at same
      exact absurd same.symm (proper.not_temporary registers n)
  exact ⟨base, stored, held ▸ number, held ▸ denotes⟩

/-- The compiler's own numbers are in their cells. -/
theorem unit (built : Built options input p rest t) {n : Int64} (is : n = 1 ∨ n = -1)
    (found : t.symbols.lookup? (.ofInt n.toInt) = some i) :
    ∃ cell, t.symbols.cells[i]? = some cell ∧ cell.value = .int n := by
  obtain ⟨base, stored, same, origin⟩ := built.origin found
  have plain : ¬ base.name.IsWord := fun word => not_isWord_unit is (word.congr same)
  rw [built.adapt_of_not_isWord plain] at stored
  refine ⟨base, stored, ?_⟩
  cases origin with
  | scanned first =>
    obtain ⟨lexeme, _, proper, registers, rfl⟩ := lexeme_of_firstCell first
    obtain rfl | rfl := is
    · cases proper.one registers same
      rfl
    · exact absurd same (proper.not_minusOne registers)
  | unit m unit own =>
    rw [own] at same ⊢
    have signs : ¬ (Text.ofInt 1).SameName (.ofInt (-1)) := by decide +kernel
    obtain rfl | rfl := unit <;> obtain rfl | rfl := is
    · rfl
    · exact absurd same signs
    · exact absurd same.symm signs
    · rfl
  | temporary m kind _ own =>
    rw [own] at same
    refine absurd same.symm (Rule.temporaryName_ne ?_)
    obtain rfl | rfl := is
    · exact .inl rfl
    · exact .inr rfl

/-- A variable is shown as it was written first. -/
theorem spelling (built : Built options input p rest t) (usual : options.quote = usualQuote)
    (among : Among (tokensOf (scanned options input)) .identifier name)
    (found : t.symbols.lookup? name = some i) :
    t.symbols.name i = .ok (firstSpelling (tokensOf (scanned options input)) .identifier name) := by
  have word := isWord_of_among among
  obtain ⟨base, cell, first, stored, named, _⟩ := built.word usual word found
  have only (lexeme : Lexeme) (registration : Registration) (proper : lexeme.Proper options.quote)
      (registers : lexeme.registration = some registration) (same : lexeme.token.text.SameName name) :
      lexeme.token.kind = .identifier :=
    (usual ▸ proper).kind_of_isWord registers (word.congr same.symm)
  obtain ⟨lexeme, registration, _, _, first', finds⟩ :=
    firstCell?_of_among built.orderly.proper rfl only among
  rw [first] at first'
  cases first'
  rw [SymbolTable.name_of_cell stored, named, firstSpelling, finds]
  rfl

/-- The cell of a text literal holds the text of the first literal of the same name. -/
theorem text (built : Built options input p rest t) (usual : options.quote = usualQuote)
    (among : Among (tokensOf (scanned options input)) .textLiteral name)
    (found : t.symbols.lookup? name = some i) :
    ∃ cell, t.symbols.cells[i]? = some cell ∧
      cell.value = literalValue (firstSpelling (tokensOf (scanned options input)) .textLiteral name) := by
  obtain ⟨own, registration', proper', registers', is', rfl⟩ := lexeme_of_among among rfl
  rw [usual] at proper'
  obtain ⟨inner, fold⟩ := proper'.fold_of_text is'
  have only (lexeme : Lexeme) (registration : Registration) (proper : lexeme.Proper options.quote)
      (registers : lexeme.registration = some registration)
      (same : lexeme.token.text.SameName own.token.text) : lexeme.token.kind = .textLiteral :=
    (usual ▸ proper).kind_of_quote registers (Eq.trans same fold)
  obtain ⟨lexeme, registration, proper, registers, first, finds⟩ :=
    firstCell?_of_among built.orderly.proper rfl only among
  have holds := List.find?_some finds
  rw [decide_eq_true_eq] at holds
  obtain ⟨base, stored, same, origin⟩ := built.origin found
  have plain : ¬ base.name.IsWord :=
    Text.not_isWord_of_head (Eq.trans same fold) (by decide +kernel)
  rw [built.adapt_of_not_isWord plain] at stored
  refine ⟨base, stored, ?_⟩
  rw [firstSpelling, finds]
  cases origin with
  | scanned here =>
    rw [firstCell?_congr _ same, first] at here
    cases here
    obtain ⟨text, rfl, denotes⟩ := (usual ▸ proper).text_value registers holds.1
    exact denotes.symm
  | unit n unit is =>
    rw [is] at same
    obtain rfl | rfl := unit
    · obtain ⟨text, rfl, _⟩ := proper'.text_value registers' is'
      cases proper'.one registers' same.symm
    · exact absurd same.symm (proper'.not_minusOne registers')
  | temporary n kind _ is =>
    rw [is] at same
    exact absurd same.symm (proper'.not_temporary registers' n)

end Built

end MiniPascal
