import MiniPascal.Proofs.Lexing.MaximalMunch
import MiniPascal.Proofs.Machine.Calculation
import MiniPascal.Proofs.Numerals

/-! # The symbols of the tokens

Identifiers and literals of all kinds share one table of symbols, which ignores case, and are found again
only by their names. Unless the quote character is taken for a letter, a name tells the class of every
token that has it, so tokens of two classes never meet in a cell. After any number of requests the table
has a cell for the first token of each name, as far as there is room, and every token whose name is not
there was complained about.
-/

namespace MiniPascal

/-! ## Names tell classes -/

/-- The class of the tokens with a name, given as it is looked up. -/
def nameKind : List Char → TokenKind
  | [] => .unknown
  | c :: rest =>
    if Scan.isLetter c then .identifier
    else if isDigit c then
      if rest.all isDigit then .integerLiteral else .realLiteral
    else .textLiteral

/-- What is known of the token of a lexeme from the table of reserved words and operators and from the
quote character. -/
structure Lexeme.Classified (quote : Char) (found : Lexeme) : Prop where
  proper : found.Proper quote
  identifier : found.token.kind = .identifier → tableKind? found.token.lexeme = none
  text : found.token.kind = .textLiteral → isDigit quote = false
  table : found.token.kind.hasSymbol = false → found.token.kind ≠ .unknown →
    tableKind? found.token.lexeme = some found.token.kind

namespace Scan

theorem word_classified {quote c : Char} {rest : List Char} (letter : isLetter c = true) :
    (word (c :: rest)).Classified quote := by
  have proper : (word (c :: rest)).Proper quote := word_proper letter
  rw [word_eq] at proper ⊢
  unfold TokenClass.lexeme at proper ⊢
  dsimp only at proper ⊢
  generalize (c :: rest).take lexemeLimits.identifier = kept at proper ⊢
  cases reserved : tableKind? kept with
  | none => exact ⟨reserved ▸ proper, fun _ => reserved, nofun, nofun⟩
  | some kind =>
    have other := (reserved_kind ((reserved_lookup kept).trans reserved)).1
    refine ⟨reserved ▸ proper, fun is => ?_, fun is => ?_, fun _ _ => reserved⟩
    · rw [show kind = _ from is] at other
      cases other
    · rw [show kind = _ from is] at other
      cases other

theorem number_classified {quote : Char} {parts : NumberParts} {c : Char} {rest : List Char}
    (proper : parts.Proper c rest) : (number parts).Classified quote := by
  have kind : (number parts).token.kind = .integerLiteral ∨ (number parts).token.kind = .realLiteral ∨
      (number parts).token.kind = .unknown := by
    unfold number
    simp only
    split
    · rename_i kind value read
      split at read
      · obtain ⟨n, _, same⟩ := Option.map_eq_some_iff.mp read
        cases same
        exact .inl rfl
      · obtain ⟨x, _, same⟩ := Option.map_eq_some_iff.mp read
        cases same
        exact .inr (.inl rfl)
    · exact .inr (.inr rfl)
  have proper : (number parts).Proper quote := number_proper proper
  generalize number parts = found at *
  refine ⟨proper, fun is => ?_, fun is => ?_, fun plain known => ?_⟩
  · simp [is] at kind
  · simp [is] at kind
  · obtain is | is | is := kind
    · rw [is] at plain
      cases plain
    · rw [is] at plain
      cases plain
    · exact absurd is known

theorem textLiteral_classified {quote : Char} (noDigit : isDigit quote = false) (row : List Char) :
    (textLiteral quote row).1.Classified quote := by
  unfold textLiteral
  dsimp only
  split
  · exact ⟨.plain rfl nofun rfl, nofun, nofun, fun _ known => absurd rfl known⟩
  · exact ⟨.text rfl rfl rfl, nofun, fun _ => noDigit, nofun⟩

theorem operator_classified {quote : Char} (c : Char) (row : List Char) :
    (operator c row).1.Classified quote := by
  have proper : (operator c row).1.Proper quote := operator_proper c row
  have spelled : ∃ lexeme, (operator c row).1 = { token := ⟨lexeme, operatorKind lexeme⟩ } := by
    unfold operator
    split
    · split <;> exact ⟨_, rfl⟩
    · exact ⟨_, rfl⟩
  obtain ⟨lexeme, spelled⟩ := spelled
  rw [spelled] at proper ⊢
  have plain := (operatorKind_plain lexeme).1
  have kind : operatorKind lexeme = (tableKind? lexeme).getD .unknown := by
    rw [operatorKind, reserved_lookup]
  generalize operatorKind lexeme = found at *
  refine ⟨proper, fun is => ?_, fun is => ?_, fun _ known => ?_⟩
  · rw [show found = _ from is] at plain
    cases plain
  · rw [show found = _ from is] at plain
    cases plain
  · cases row : tableKind? lexeme with
    | none => exact absurd (by rw [kind, row]; rfl) known
    | some k => rw [kind, row]; rfl

theorem lexeme_classified (quote c : Char) (row : List Char) :
    (lexeme quote c row).1.Classified quote := by
  unfold lexeme
  split
  · rename_i letter
    dsimp only
    exact word_classified letter
  · split
    · rename_i digit
      exact number_classified (takeNumber_proper digit)
    · rename_i noDigit
      split
      · rename_i is
        subst is
        exact textLiteral_classified (by simpa using noDigit) row
      · exact operator_classified c row

end Scan

section Names

variable {quote : Char} {found other : Lexeme}

/-- The digits of an integer literal are its value. -/
theorem of_readWhole {c : Char} {rest : List Char} {n : Int64} (digit : isDigit c = true)
    (denotes : readWhole? (c :: rest) = some n) :
    (∀ d ∈ c :: rest, isDigit d = true) ∧ n.toInt = digitsValue (c :: rest) := by
  rw [readWhole_unsigned digit] at denotes
  obtain ⟨value, digits, word⟩ := Option.bind_eq_some_iff.mp denotes
  unfold readDigits? at digits
  split at digits
  · rename_i all
    cases digits
    exact ⟨List.all_eq_true.mp all.2, word_eq_some.mp word⟩
  · cases digits

/-- The name of a token with a symbol tells its class. -/
theorem Lexeme.Classified.nameKind_fold (apart : Scan.isLetter (upperCase quote) = false)
    (classified : found.Classified quote) (is : found.token.kind.hasSymbol = true) :
    nameKind found.token.text.fold = found.token.kind := by
  cases classified.proper with
  | @identifier c rest kind _ starts letter =>
    rw [Token.text, Text.fold_ofChars, starts, List.map_cons, nameKind, kind,
      if_pos (upperCase_letter letter)]
  | @integer n c rest kind _ denotes starts digit =>
    rw [starts] at denotes
    obtain ⟨all, _⟩ := of_readWhole digit denotes
    rw [Token.text, Text.fold_ofChars, starts, map_upperCase_digits all, nameKind, kind,
      not_letter_of_digit digit, if_neg (by decide), if_pos digit, if_pos]
    exact List.all_eq_true.mpr (List.forall_mem_cons.mp all).2
  | @real x c rest kind _ starts digit _ _ marked plain =>
    have some : ¬ (rest.map upperCase).all isDigit = true := by
      rw [starts] at marked plain
      rw [all_upperCase (List.forall_mem_cons.mp plain).2]
      intro all
      obtain ⟨mark, member, is⟩ := marked
      have no := Scan.not_digit_of_mark is
      obtain rfl | member := List.mem_cons.mp member
      · simp [digit] at no
      · simp [List.all_eq_true.mp all mark member] at no
    rw [Token.text, Text.fold_ofChars, starts, List.map_cons, upperCase_digit digit, nameKind, kind,
      not_letter_of_digit digit, if_neg (by decide), if_pos digit, if_neg some]
  | @text inner kind _ encloses =>
    have noDigit : ¬ isDigit (upperCase quote) = true := by
      intro digit
      have small : (upperCase quote).toNat < 65 := by
        simp only [isDigit, Bool.and_eq_true, decide_eq_true_eq, Char.le_def,
          UInt32.le_iff_toNat_le] at digit
        simp at digit
        omega
      rw [upperCase_of_small small, classified.text kind] at digit
      cases digit
    rw [Token.text, Text.fold_ofChars, encloses, List.cons_append, List.map_cons, nameKind, kind, apart,
      if_neg (by decide), if_neg noDigit]
  | plain no => simp [no] at is

theorem tableKind_congr {first second : List Char}
    (same : (Text.ofChars first).SameName (.ofChars second)) : tableKind? first = tableKind? second := by
  rw [← reserved_lookup, ← reserved_lookup]
  unfold NameTable.lookupName?
  rw [show (Text.ofChars first).fold = _ from same]

/-- Only a reserved word or an operator is spelled like one. -/
theorem Lexeme.Classified.not_reserved (apart : Scan.isLetter (upperCase quote) = false)
    (classified : found.Classified quote) (is : found.token.kind.hasSymbol = true) :
    tableKind? found.token.lexeme = none := by
  cases reserved : tableKind? found.token.lexeme with
  | none => rfl
  | some kind =>
    have all : ∀ row ∈ TokenKind.reservedRows, ∀ name, row.1.toList.map upperCase = name →
        nameKind name = .identifier ∨
          nameKind name = .textLiteral ∧ (name.length < 2 ∨ name.head? ≠ name.getLast?) := by
      simp only [forall_eq']
      decide +kernel
    have row := reserved
    unfold tableKind? at row
    obtain ⟨row, here, _⟩ := Option.map_eq_some_iff.mp row
    have same : (Text.ofString row.1).SameName (.ofChars found.token.lexeme) := by
      simpa using List.find?_some here
    rw [Text.SameName, Text.ofString, Text.fold_ofChars] at same
    change _ = found.token.text.fold at same
    have name := classified.nameKind_fold apart is
    obtain word | ⟨sign, short⟩ := all row (List.mem_of_find?_eq_some here) _ same
    · rw [classified.identifier (name.symm.trans word)] at reserved
      cases reserved
    · cases classified.proper with
      | identifier kind | integer kind | real kind =>
        rw [name, kind] at sign
        cases sign
      | text _ _ encloses =>
        rw [Token.text, Text.fold_ofChars, encloses, List.map_append] at short
        obtain small | apart := short
        · simp only [List.map_cons, List.cons_append, List.length_cons, List.length_append] at small
          omega
        · exact absurd List.getLast?_concat.symm apart
      | plain no => simp [no] at is

end Names

/-! ## First tokens -/

/-- Of the tokens that have symbols, the first one of each name. -/
def firstTokens : List Token → List Token
  | [] => []
  | token :: more =>
    if token.kind.hasSymbol then
      token :: (firstTokens more).filter fun later => ¬ later.text.SameName token.text
    else firstTokens more

theorem mem_of_firstTokens {tokens : List Token} {first : Token} (member : first ∈ firstTokens tokens) :
    first ∈ tokens ∧ first.kind.hasSymbol = true := by
  induction tokens with
  | nil => cases member
  | cons token tokens ih =>
    unfold firstTokens at member
    split at member
    · rename_i symbol
      obtain rfl | member := List.mem_cons.mp member
      · exact ⟨List.mem_cons_self, symbol⟩
      · exact (ih (List.mem_filter.mp member).1).imp_left (List.mem_cons_of_mem _)
    · exact (ih member).imp_left (List.mem_cons_of_mem _)

theorem exists_firstTokens {tokens : List Token} {token : Token} (member : token ∈ tokens)
    (symbol : token.kind.hasSymbol = true) :
    ∃ first ∈ firstTokens tokens, first.text.SameName token.text := by
  induction tokens with
  | nil => cases member
  | cons head tokens ih =>
    unfold firstTokens
    obtain rfl | member := List.mem_cons.mp member
    · rw [if_pos symbol]
      exact ⟨token, List.mem_cons_self, .refl _⟩
    · obtain ⟨first, found, same⟩ := ih member
      split
      · by_cases again : first.text.SameName head.text
        · exact ⟨head, List.mem_cons_self, again.symm.trans same⟩
        · exact ⟨first, List.mem_cons_of_mem _ (List.mem_filter.mpr ⟨found, by simpa using again⟩), same⟩
      · exact ⟨first, found, same⟩

/-- A token whose name is new is the first one with it. -/
theorem firstTokens_of_new {tokens : List Token} {token : Token} (symbol : token.kind.hasSymbol = true)
    (new : ∀ first ∈ firstTokens tokens, ¬ first.text.SameName token.text) :
    firstTokens (tokens ++ [token]) = firstTokens tokens ++ [token] := by
  induction tokens with
  | nil => simp [firstTokens, symbol]
  | cons head tokens ih =>
    rw [List.cons_append]
    unfold firstTokens at new ⊢
    split at new
    · rename_i isSymbol
      obtain ⟨other, new⟩ := List.forall_mem_cons.mp new
      -- the tokens that are left out because of the head have another name
      have new : ∀ first ∈ firstTokens tokens, ¬ first.text.SameName token.text := by
        intro first member same
        refine new first (List.mem_filter.mpr ⟨member, ?_⟩) same
        simpa using fun again : first.text.SameName head.text => other (again.symm.trans same)
      have kept : ¬ token.text.SameName head.text := fun same => other same.symm
      rw [if_pos isSymbol, if_pos isSymbol, ih new, List.filter_append]
      simp [kept]
    · rename_i isPlain
      rw [if_neg isPlain, if_neg isPlain, ih new]

/-- A token whose name is known is none of the first ones. -/
theorem firstTokens_of_known {tokens : List Token} {token first : Token}
    (symbol : token.kind.hasSymbol = true) (member : first ∈ firstTokens tokens)
    (same : first.text.SameName token.text) :
    firstTokens (tokens ++ [token]) = firstTokens tokens := by
  induction tokens generalizing first with
  | nil => cases member
  | cons head tokens ih =>
    rw [List.cons_append]
    unfold firstTokens at member ⊢
    split at member
    · rename_i isSymbol
      rw [if_pos isSymbol, if_pos isSymbol]
      by_cases known : ∃ first ∈ firstTokens tokens, first.text.SameName token.text
      · obtain ⟨first, member, same⟩ := known
        rw [ih member same]
      · -- the token is left out because of the head
        have again : token.text.SameName head.text := by
          obtain rfl | member := List.mem_cons.mp member
          · exact same.symm
          · exact absurd ⟨first, (List.mem_filter.mp member).1, same⟩ known
        rw [firstTokens_of_new symbol fun first member same => known ⟨first, member, same⟩,
          List.filter_append]
        simp [again]
    · rename_i isPlain
      rw [if_neg isPlain, if_neg isPlain, ih member same]

theorem firstTokens_of_plain {token : Token} (plain : token.kind.hasSymbol = false) (tokens : List Token) :
    firstTokens (tokens ++ [token]) = firstTokens tokens := by
  induction tokens with
  | nil => simp [firstTokens, plain]
  | cons head tokens ih =>
    rw [List.cons_append]
    unfold firstTokens
    rw [ih]

/-! ## Cells -/

/-- The cell that a token introduces: a variable without a value, or a constant with the value that the
token denotes. -/
inductive Token.Introduces (quote : Char) (token : Token) : Cell → Prop
  | identifier (is : token.kind = .identifier) : Introduces quote token ⟨token.text, .var, .int 0⟩
  | integer {n : Int64} (is : token.kind = .integerLiteral)
      (digits : ∀ c ∈ token.lexeme, isDigit c = true) (denotes : n.toInt = digitsValue token.lexeme) :
      Introduces quote token ⟨token.text, .constant, .int n⟩
  | real {x : Float} (is : token.kind = .realLiteral) (denotes : readReal? token.lexeme = some x) :
      Introduces quote token ⟨token.text, .constant, .real x⟩
  | text {inner : List Char} (is : token.kind = .textLiteral)
      (encloses : token.lexeme = quote :: inner ++ [quote]) :
      Introduces quote token ⟨token.text, .constant, .text (.ofChars inner)⟩

theorem Token.Introduces.name {quote : Char} {token : Token} {cell : Cell}
    (introduces : token.Introduces quote cell) : cell.name = token.text := by
  cases introduces <;> rfl

theorem Lexeme.Proper.introduces {quote : Char} {found : Lexeme} (proper : found.Proper quote) :
    (found.token.kind.hasSymbol = false ∧ found.registration = none) ∨
      (found.token.kind.hasSymbol = true ∧ ∃ registration, found.registration = some registration ∧
        found.token.Introduces quote ⟨found.token.text, registration.usage, registration.value⟩) := by
  cases proper with
  | identifier is registers => exact .inr ⟨is ▸ rfl, _, registers, .identifier is⟩
  | @integer n c rest is registers denotes starts digit =>
    rw [starts] at denotes
    obtain ⟨digits, value⟩ := of_readWhole digit denotes
    rw [← starts] at digits value
    exact .inr ⟨is ▸ rfl, _, registers, .integer is digits value⟩
  | real is registers _ _ _ denotes => exact .inr ⟨is ▸ rfl, _, registers, .real is denotes⟩
  | text is registers encloses => exact .inr ⟨is ▸ rfl, _, registers, .text is encloses⟩
  | plain no _ registers => exact .inl ⟨no, registers⟩

namespace SymbolTable

/-- The table after some tokens were handed over: it has the cells of their first tokens, as far as there
is room. -/
structure Registers (quote : Char) (tokens : List Token) (table : SymbolTable) : Prop where
  wellFormed : table.WellFormed
  cells : List.Forall₂ (Token.Introduces quote) ((firstTokens tokens).take table.capacity)
    table.cells.toList

variable {quote : Char} {tokens : List Token} {table : SymbolTable}

namespace Registers

theorem size (registers : table.Registers quote tokens) :
    table.size = min table.capacity (firstTokens tokens).length := by
  have same := registers.cells.length_eq
  rw [List.length_take, Array.length_toList] at same
  exact same.symm

theorem lookup_iff (registers : table.Registers quote tokens) (name : Text) (i : Nat) :
    table.lookup? name = some i ↔
      ∃ first, ((firstTokens tokens).take table.capacity)[i]? = some first ∧
        first.text.SameName name := by
  rw [registers.wellFormed.lookup_iff, ← Array.getElem?_toList]
  obtain ⟨none, none'⟩ | ⟨first, cell, here, there, introduces⟩ := getElem_of_forall₂ registers.cells i
  · simp [none, none']
  · simp [here, there, introduces.name]

theorem of_plain (registers : table.Registers quote tokens) {token : Token}
    (plain : token.kind.hasSymbol = false) : table.Registers quote (tokens ++ [token]) := by
  refine ⟨registers.wellFormed, ?_⟩
  rw [firstTokens_of_plain plain]
  exact registers.cells

theorem of_known (registers : table.Registers quote tokens) {token : Token}
    (symbol : token.kind.hasSymbol = true) {i : Nat} (known : table.lookup? token.text = some i) :
    table.Registers quote (tokens ++ [token]) := by
  obtain ⟨first, here, same⟩ := (registers.lookup_iff _ i).mp known
  refine ⟨registers.wellFormed, ?_⟩
  rw [firstTokens_of_known symbol (List.mem_of_mem_take (List.mem_of_getElem? here)) same]
  exact registers.cells

/-- While there is room, a name without a cell is new. -/
theorem new_of_room (registers : table.Registers quote tokens) {name : Text}
    (missing : table.lookup? name = none) (room : table.size ≠ table.capacity) :
    ∀ first ∈ firstTokens tokens, ¬ first.text.SameName name := by
  intro first member same
  have size := registers.size
  have all : (firstTokens tokens).take table.capacity = firstTokens tokens :=
    List.take_of_length_le (by omega)
  obtain ⟨i, here⟩ := List.getElem?_of_mem member
  rw [(registers.lookup_iff name i).mpr ⟨first, all.symm ▸ here, same⟩] at missing
  cases missing

theorem insert (registers : table.Registers quote tokens) {token : Token} {cell : Cell}
    (symbol : token.kind.hasSymbol = true) (missing : table.lookup? token.text = none)
    (room : table.size ≠ table.capacity) (introduces : token.Introduces quote cell) :
    (table.insert cell).Registers quote (tokens ++ [token]) := by
  have size := registers.size
  have new := registers.new_of_room missing room
  refine ⟨registers.wellFormed.insert (introduces.name.symm ▸ missing) room, ?_⟩
  rw [firstTokens_of_new symbol new]
  have cells := registers.cells
  rw [List.take_of_length_le (by omega)] at cells
  change List.Forall₂ _ ((firstTokens tokens ++ [token]).take table.capacity) (table.cells.push cell).toList
  rw [List.take_of_length_le (by rw [List.length_append, List.length_singleton]; omega),
    Array.toList_push]
  exact List.rel_append cells (.cons introduces .nil)

/-- A full table stays as it is. -/
theorem of_full (registers : table.Registers quote tokens) (full : table.size = table.capacity)
    {token : Token} (symbol : token.kind.hasSymbol = true) :
    table.Registers quote (tokens ++ [token]) := by
  have size := registers.size
  refine ⟨registers.wellFormed, ?_⟩
  by_cases known : ∃ first ∈ firstTokens tokens, first.text.SameName token.text
  · obtain ⟨first, member, same⟩ := known
    rw [firstTokens_of_known symbol member same]
    exact registers.cells
  · rw [firstTokens_of_new symbol fun first member same => known ⟨first, member, same⟩,
      List.take_append_of_le_length (by omega)]
    exact registers.cells

end Registers

/-- The complaints about the tokens whose symbols are not in the table. -/
def refusals (table : SymbolTable) (tokens : List Token) : List Diagnostic :=
  (tokens.filter fun token => token.kind.hasSymbol && (table.lookup? token.text).isNone).map
    fun token => .noRoomFor token.text

theorem refusals_eq_nil
    (known : ∀ token ∈ tokens, token.kind.hasSymbol = true → ∃ i, table.lookup? token.text = some i) :
    table.refusals tokens = [] := by
  unfold refusals
  rw [List.map_eq_nil_iff, List.filter_eq_nil_iff]
  intro token member
  cases symbol : token.kind.hasSymbol with
  | false => simp
  | true =>
    obtain ⟨i, found⟩ := known token member symbol
    simp [found]

/-- While there is room, all tokens that have symbols are found. -/
theorem Registers.known_of_room (registers : table.Registers quote tokens)
    (room : table.size ≠ table.capacity) :
    ∀ token ∈ tokens, token.kind.hasSymbol = true → ∃ i, table.lookup? token.text = some i := by
  intro token member symbol
  obtain ⟨first, member, same⟩ := exists_firstTokens member symbol
  refine Option.ne_none_iff_exists'.mp fun missing => ?_
  exact registers.new_of_room missing room first member same

/-- What one token does to the table. -/
theorem Registers.handOver (registers : table.Registers quote tokens) {found : Lexeme}
    (proper : found.Proper quote) :
    (found.register table).Registers quote (tokens ++ [found.token]) ∧
      (found.register table).refusals (tokens ++ [found.token]) =
        table.refusals tokens ++ found.refusal table := by
  unfold Lexeme.register Lexeme.refusal
  obtain ⟨plain, none⟩ | ⟨symbol, registration, names, introduces⟩ := proper.introduces
  · rw [none]
    refine ⟨registers.of_plain plain, ?_⟩
    simp [refusals, plain]
  · rw [names, Option.elim_some, Option.elim_some]
    obtain ⟨i, known, added⟩ | ⟨missing, full, added⟩ | ⟨missing, room, added⟩ :=
      table.add_cases found.token.text registration.usage registration.value
    all_goals rw [added]
    · refine ⟨registers.of_known symbol known, ?_⟩
      simp [refusals, known]
    · refine ⟨registers.of_full full symbol, ?_⟩
      simp [refusals, missing, symbol]
    · refine ⟨registers.insert symbol missing room introduces, ?_⟩
      have known := registers.known_of_room room
      have grows := @extends_insert table ⟨_, registration.usage, registration.value⟩ missing
      rw [refusals_eq_nil known, refusals_eq_nil]
      · rfl
      intro token member isSymbol
      obtain member | is := List.mem_append.mp member
      · obtain ⟨i, here⟩ := known token member isSymbol
        exact ⟨i, grows.lookup _ i here⟩
      · rw [List.mem_singleton.mp is, lookup_insert, if_pos (Text.SameName.refl _)]
        exact ⟨_, rfl⟩

end SymbolTable

/-! ## Requests -/

/-- The tokens of some items. -/
def handedOver (items : List Scanned) : List Token :=
  items.filterMap fun item => item.lexeme.map (·.token)

theorem handedOver_append (first second : List Scanned) :
    handedOver (first ++ second) = handedOver first ++ handedOver second :=
  List.filterMap_append

theorem exists_of_handedOver {items : List Scanned} {token : Token} (member : token ∈ handedOver items) :
    ∃ item ∈ items, ∃ found, item.lexeme = some found ∧ found.token = token := by
  obtain ⟨item, member, here⟩ := List.mem_filterMap.mp member
  obtain ⟨found, here, same⟩ := Option.map_eq_some_iff.mp here
  exact ⟨item, member, found, here, same⟩

theorem errors_outcome (item : Scanned) :
    item.outcome.issues.countP (·.level = .error) = item.errors := by
  unfold Scanned.outcome Scanned.errors
  induction item.notes with
  | nil => rfl
  | cons note notes ih =>
    cases note with
    | line number text => exact ih
    | issue diagnostic =>
      simp only [List.filterMap_cons, ScanNote.issue?, List.countP_cons]
      rw [ih]
      rfl

theorem errors_refusal (symbols : SymbolTable) (found : Lexeme) :
    (found.refusal symbols).countP (·.level = .error) = (found.refusal symbols).length := by
  unfold Lexeme.refusal
  cases found.registration with
  | none => rfl
  | some registration =>
    rw [Option.elim_some]
    split <;> rfl

namespace Lexing

/-- What is kept account of while tokens are handed over. -/
structure Settles (quote : Char) (capacity : Nat) (watch : Watch) (read : List Scanned)
    (lexing : Lexing) : Prop where
  symbols : lexing.symbols.Registers quote (handedOver read)
  holds : lexing.symbols.capacity = capacity
  watches : lexing.journal.watch = watch
  errors : lexing.lexicalErrors = errorsIn read + (lexing.symbols.refusals (handedOver read)).length
  reports : watch.diagnostics = true →
    (lexing.symbols.refusals (handedOver read)).Sublist lexing.journal.reports

theorem settles_start (quote : Char) (capacity : Nat) (watch : Watch) (input : Input) :
    Settles quote capacity watch [] (start quote capacity watch input) where
  symbols := ⟨SymbolTable.wellFormed_empty _, by
    simp [handedOver, firstTokens, start, SymbolTable.empty]⟩
  holds := rfl
  watches := rfl
  errors := rfl
  reports _ := List.nil_sublist _

namespace Settles

variable {quote : Char} {capacity : Nat} {watch : Watch} {read : List Scanned} {lexing : Lexing}

/-- One request. -/
theorem next (settles : Settles quote capacity watch read lexing) {item : Scanned} {items : List Scanned}
    (more : lexing.unread = item :: items)
    (proper : ∀ found, item.lexeme = some found → found.Proper quote) :
    lexing.next.1 = item.lexeme.map (·.token) ∧ lexing.next.2.unread = items ∧
      Settles quote capacity watch (read ++ [item]) lexing.next.2 := by
  have told : lexing.unread.map Scanned.outcome = item.outcome :: items.map Scanned.outcome := by
    rw [more, List.map_cons]
  obtain ⟨token, _, _, symbols, complains⟩ := next_spec told
  change _ = item.lexeme.elim _ _ at symbols
  change Complains _ (_ ++ item.lexeme.elim _ _) _ at complains
  refine ⟨token, (next_cons more).2.1, ?_⟩
  have account : lexing.next.2.symbols.Registers quote (handedOver (read ++ [item])) ∧
      lexing.next.2.symbols.refusals (handedOver (read ++ [item])) =
        lexing.symbols.refusals (handedOver read) ++
          item.lexeme.elim [] (·.refusal lexing.symbols) ∧
      (item.lexeme.elim [] (·.refusal lexing.symbols)).countP (·.level = .error) =
        (item.lexeme.elim [] (·.refusal lexing.symbols)).length := by
    rw [symbols, handedOver_append]
    cases here : item.lexeme with
    | none => simpa [handedOver, here] using settles.symbols
    | some found =>
      obtain ⟨registers, refuses⟩ := settles.symbols.handOver (proper found here)
      rw [show handedOver [item] = [found.token] by simp [handedOver, here]]
      exact ⟨registers, refuses, errors_refusal _ _⟩
  obtain ⟨registers, refuses, errors⟩ := account
  refine ⟨registers, ?_, complains.watch.trans settles.watches, ?_, fun watched => ?_⟩
  · rw [symbols, ← settles.holds]
    cases item.lexeme with
    | none => rfl
    | some found => exact (register_size _ found).1
  · rw [complains.errors, List.countP_append, errors_outcome, errors, refuses,
      settles.errors, errorsIn_append, errorsIn_cons, errorsIn_nil, List.length_append]
    omega
  · rw [refuses, complains.reports (settles.watches ▸ watched)]
    exact (settles.reports watched).append (List.sublist_append_right _ _)

/-- Any number of requests. -/
theorem all (settles : Settles quote capacity watch read lexing)
    (proper : ∀ item ∈ lexing.unread, ∀ found, item.lexeme = some found → found.Proper quote)
    (calls : Nat) :
    ∃ more, lexing.unread = more ++ (lexing.all calls).2.unread ∧
      (lexing.all calls).1.map (·.1) = handedOver more ∧
      Settles quote capacity watch (read ++ more) (lexing.all calls).2 := by
  induction calls generalizing read lexing with
  | zero => exact ⟨[], rfl, rfl, (List.append_nil read).symm ▸ settles⟩
  | succ calls ih =>
    unfold Lexing.all
    cases unread : lexing.unread with
    | nil =>
      rw [next_nil unread]
      exact ⟨[], unread.symm, rfl, (List.append_nil read).symm ▸ settles⟩
    | cons item items =>
      rw [unread, List.forall_mem_cons] at proper
      obtain ⟨token, rest, settles⟩ := settles.next unread proper.1
      generalize lexing.next = result at *
      obtain ⟨first, after⟩ := result
      dsimp only at *
      subst token
      cases here : item.lexeme with
      | none => exact ⟨[item], congrArg _ rest.symm, by simp [handedOver, here], settles⟩
      | some found =>
        obtain ⟨more, split, tokens, settles⟩ := ih settles (rest ▸ proper.2)
        refine ⟨item :: more, ?_, ?_, ?_⟩
        · exact congrArg (item :: ·) (rest.symm.trans split)
        · rw [← List.singleton_append, handedOver_append, ← tokens]
          simp [handedOver, here]
        · rwa [List.append_assoc] at settles

end Settles

end Lexing

theorem Lexing.unread_classified (quote : Char) (capacity : Nat) (watch : Watch) (input : Input) :
    ∀ item ∈ (start quote capacity watch input).unread, ∀ found, item.lexeme = some found →
      found.Classified quote :=
  Scan.items_all (Scan.lexeme_classified quote) _ _ _

/-- The tokens that requests have brought stand in the table by name and class. -/
structure Lexing.Resolves (quote : Char) (capacity : Nat) (start : Lexing) (tokens : List Token)
    (last : Lexing) : Prop where
  cells : List.Forall₂ (Token.Introduces quote) ((firstTokens tokens).take capacity)
    last.symbols.cells.toList
  names : ∀ name i, last.symbols.lookup? name = some i ↔
    ∃ first, ((firstTokens tokens).take capacity)[i]? = some first ∧ first.text.SameName name
  /-- Tokens that have the same cell are of the same class. -/
  classes : ∀ token ∈ tokens, ∀ other ∈ tokens,
    token.kind.hasSymbol = true → other.kind.hasSymbol = true →
    ∀ i, last.symbols.lookup? token.text = some i → last.symbols.lookup? other.text = some i →
      token.kind = other.kind
  /-- Reserved words and operators have no cell. -/
  reserved : ∀ token ∈ tokens, token.kind.hasSymbol = false → token.kind ≠ .unknown →
    last.symbols.lookup? token.text = none
  /-- Each name without a cell is an error, next to those of the text that was read. -/
  errors : ∃ read, start.unread = read ++ last.unread ∧
    last.lexicalErrors = errorsIn read + (last.symbols.refusals tokens).length
  reports : start.journal.watch.diagnostics = true →
    (last.symbols.refusals tokens).Sublist last.journal.reports

/-- The table has a cell for the first token of each name, as far as there is room. Tokens of two
classes never share one, and a name without a cell is an error. -/
theorem tokens_resolve_to_their_class {quote : Char} (apart : Scan.isLetter (upperCase quote) = false)
    (capacity : Nat) (watch : Watch) (input : Input) (calls : Nat) :
    let start := Lexing.start quote capacity watch input
    let tokens := (start.all calls).1.map (·.1)
    let last := (start.all calls).2
    start.Resolves quote capacity tokens last := by
  intro start tokens last
  have classified := Lexing.unread_classified quote capacity watch input
  obtain ⟨read, split, handed, settles⟩ := (Lexing.settles_start quote capacity watch input).all
    (fun item member found here => (classified item member found here).proper) calls
  rw [List.nil_append] at settles
  have tokens_eq : tokens = handedOver read := handed
  have holds : last.symbols.capacity = capacity := settles.holds
  have registers : last.symbols.Registers quote tokens := tokens_eq ▸ settles.symbols
  have known : ∀ token ∈ tokens, ∃ found : Lexeme, found.Classified quote ∧ found.token = token := by
    intro token member
    obtain ⟨item, member, found, here, is⟩ := exists_of_handedOver (tokens_eq ▸ member)
    exact ⟨found, classified item (split ▸ List.mem_append_left _ member) found here, is⟩
  have errors := settles.errors
  have reports := settles.reports
  rw [← tokens_eq] at errors reports
  refine ⟨holds ▸ registers.cells, holds ▸ registers.lookup_iff, ?_, ?_, ⟨read, split, errors⟩, reports⟩
  · intro token member other member' symbol symbol' i here here'
    obtain ⟨found, classified, rfl⟩ := known token member
    obtain ⟨found', classified', rfl⟩ := known other member'
    have same : found.token.text.fold = found'.token.text.fold :=
      registers.wellFormed.sameName here here'
    rw [← classified.nameKind_fold apart symbol, ← classified'.nameKind_fold apart symbol', same]
  · intro token member plain other
    obtain ⟨found, classified, rfl⟩ := known token member
    refine Option.eq_none_iff_forall_ne_some.mpr fun i here => ?_
    obtain ⟨first, stands, same⟩ := (registers.lookup_iff _ i).mp here
    obtain ⟨member', symbol⟩ := mem_of_firstTokens (List.mem_of_mem_take (List.mem_of_getElem? stands))
    obtain ⟨found', classified', rfl⟩ := known first member'
    have reserved := classified.table plain other
    rw [← tableKind_congr same, classified'.not_reserved apart symbol] at reserved
    cases reserved

/-- Three cells for five names: a name in two cases, a text with the letters of a name, and a real and a
last name for which there is no room. -/
theorem five_names_for_three_cells :
    let input := Input.ofString "Sum := 12 - SUM < 'sum' + 12.0 + then x"
    let start := Lexing.start '\'' 3 { diagnostics := true } input
    let tokens := (start.all 20).1.map (·.1)
    let last := (start.all 20).2
    Scan.isLetter (upperCase '\'') = false ∧ (firstTokens tokens).length = 5 ∧
    List.Forall₂ (Token.Introduces '\'') ((firstTokens tokens).take 3) last.symbols.cells.toList ∧
    (∀ token ∈ tokens, ∀ other ∈ tokens, token.kind.hasSymbol = true → other.kind.hasSymbol = true →
      ∀ i, last.symbols.lookup? token.text = some i → last.symbols.lookup? other.text = some i →
        token.kind = other.kind) ∧
    last.symbols.lookup? (Text.ofString "THEN") = none ∧
    (last.symbols.refusals tokens).length = 2 ∧ last.lexicalErrors = 2 ∧
    (last.symbols.refusals tokens).Sublist last.journal.reports := by
  intro input start tokens last
  have apart : Scan.isLetter (upperCase '\'') = false := by decide
  obtain ⟨five, missing, refused, errors⟩ : (firstTokens tokens).length = 5 ∧
      last.symbols.lookup? (Text.ofString "THEN") = none ∧
      (last.symbols.refusals tokens).length = 2 ∧ last.lexicalErrors = 2 := by
    decide +kernel
  clear_value input
  have resolves := tokens_resolve_to_their_class apart 3 { diagnostics := true } input 20
  exact ⟨apart, five, resolves.cells, resolves.classes, missing, refused, errors, resolves.reports rfl⟩

end MiniPascal
