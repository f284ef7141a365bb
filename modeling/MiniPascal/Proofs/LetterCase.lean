import MiniPascal.Proofs.Compiler.Likeness
import MiniPascal.Proofs.Lexing.Recasing
import MiniPascal.Proofs.Lexing.Spacing
import MiniPascal.Proofs.Lexing.Symbols
import MiniPascal.Proofs.Numerals

/-! # The case of letters

Outside text literals, a program may be written in either case. The tokens of both texts are of the same
kinds and register the same values under names that differ in case only, and both texts have the same number
of errors. So they are compiled alike.
-/

namespace MiniPascal

open Scan

/-! ## Tokens -/

/-- Tokens that differ in nothing but case, with the same symbol and as many errors. -/
structure Lexeme.Alike (found other : Lexeme) : Prop where
  kind : found.token.kind = other.token.kind
  text : found.token.text.SameName other.token.text
  registration : found.registration = other.registration
  errors : found.issues.countP (·.level = .error) = other.issues.countP (·.level = .error)

section Lexemes

variable {row other : List Char}

theorem Recased.sameName (recased : Recased row other) :
    (Text.ofChars row).SameName (.ofChars other) := by
  rw [Text.SameName, Text.fold_ofChars, Text.fold_ofChars, recased.upper]

theorem Recased.tableKind (recased : Recased row other) : tableKind? row = tableKind? other :=
  tableKind_congr recased.sameName

theorem word_alike (recased : Recased row other) :
    (TokenClass.word.lexeme row).Alike (TokenClass.word.lexeme other) := by
  have kept := recased.take lexemeLimits.identifier
  have kind := kept.tableKind
  refine ⟨?_, kept.sameName, ?_, ?_⟩
  all_goals dsimp only [TokenClass.lexeme]
  · rw [kind]
  · rw [kind]
  · rw [recased.length_eq]
    split <;> rfl

theorem operator_alike (recased : Recased row other) {cls : TokenClass}
    (is : cls = .pair ∨ cls = .single) : (cls.lexeme row).Alike (cls.lexeme other) := by
  have kind := congrArg (fun kind? => kind?.getD TokenKind.unknown) recased.tableKind
  rcases is with rfl | rfl
  · exact ⟨kind, recased.sameName, rfl, rfl⟩
  · exact ⟨kind, recased.sameName, rfl, rfl⟩

end Lexemes

namespace Scan.NumberParts.Alike

variable {parts other : NumberParts}

theorem kept (alike : parts.Alike other) : parts.kept.Alike other.kept := by
  obtain ⟨whole, fraction, exponent⟩ := parts
  obtain ⟨whole', fraction', exponent'⟩ := other
  obtain ⟨rfl, rfl, marks⟩ := alike
  refine ⟨rfl, rfl, ?_⟩
  cases exponent <;> cases exponent' <;> simp_all [NumberParts.kept]

theorem upper (alike : parts.Alike other) : parts.written.map upperCase = other.written.map upperCase := by
  obtain ⟨whole, fraction, exponent⟩ := parts
  obtain ⟨whole', fraction', exponent'⟩ := other
  obtain ⟨rfl, rfl, marks⟩ := alike
  cases exponent <;> cases exponent' <;> simp_all [NumberParts.written]

theorem isNone (alike : parts.Alike other) : parts.exponent.isNone = other.exponent.isNone := by
  have marks := congrArg Option.isNone alike.exponent
  rwa [Option.isNone_map, Option.isNone_map] at marks

end Scan.NumberParts.Alike

theorem IsNumber.value_eq {parts other : NumberParts} (is : IsNumber parts) (is' : IsNumber other)
    (alike : parts.Alike other) :
    (if parts.fraction.isNone && parts.exponent.isNone then (readWhole? parts.kept.written).map Value.int
      else (readReal? parts.kept.written).map Value.real) =
    if other.fraction.isNone && other.exponent.isNone then (readWhole? other.kept.written).map Value.int
      else (readReal? other.kept.written).map Value.real := by
  rw [← readReal_upperCase is.kept.numerals, ← readReal_upperCase is'.kept.numerals, alike.kept.upper,
    alike.fraction, alike.isNone]
  split
  · rename_i whole
    -- without an exponent there is no letter
    obtain ⟨_, none⟩ := Bool.and_eq_true_iff.mp whole
    have same : parts = other := by
      obtain ⟨_, _, exponent⟩ := parts
      obtain ⟨_, _, exponent'⟩ := other
      have none' := alike.isNone.trans none
      obtain ⟨rfl, rfl, _⟩ := alike
      obtain rfl := Option.isNone_iff_eq_none.mp none
      obtain rfl := Option.isNone_iff_eq_none.mp none'
      rfl
    rw [same]
  · rfl

/-- A number is an error if it has no value, and else at most a warning. -/
theorem errors_number (parts : NumberParts) (row : List Char) :
    ((TokenClass.number parts).lexeme row).issues.countP (·.level = .error) =
      ((TokenClass.number parts).lexeme row).registration.isNone.toNat := by
  have mild (condition : Prop) [Decidable condition] (issue : Diagnostic) (level : issue.level = .warning) :
      (if condition then [issue] else []).countP (·.level = .error) = 0 := by
    split <;> simp [level]
  dsimp only [TokenClass.lexeme]
  rw [List.countP_append, List.countP_append, List.countP_append, mild _ (.wholeCut _) rfl,
    mild _ (.fractionCut _) rfl, mild _ (.exponentCut _) rfl, Option.isNone_map, Nat.zero_add]
  generalize Option.isNone _ = malformed
  cases malformed <;> rfl

theorem number_alike {parts other : NumberParts} (is : IsNumber parts) (is' : IsNumber other)
    (alike : parts.Alike other) (row row' : List Char) :
    ((TokenClass.number parts).lexeme row).Alike ((TokenClass.number other).lexeme row') := by
  have value := is.value_eq is' alike
  have registration : ((TokenClass.number parts).lexeme row).registration =
      ((TokenClass.number other).lexeme row').registration := by
    dsimp only [TokenClass.lexeme]
    rw [value]
  refine ⟨?_, ?_, registration, ?_⟩
  · dsimp only [TokenClass.lexeme]
    rw [value, alike.fraction, alike.isNone]
  · change (Text.ofChars parts.kept.written).SameName (.ofChars other.kept.written)
    rw [Text.SameName, Text.fold_ofChars, Text.fold_ofChars, alike.kept.upper]
  · rw [errors_number, errors_number, registration]

/-- Pieces alike have tokens alike. -/
theorem Piece.Alike.lexeme {quote : Char} {piece other : Piece} (alike : piece.Alike quote other) :
    piece.lexeme.Alike other.lexeme := by
  obtain ⟨_, row, cls⟩ := piece
  obtain ⟨_, row', cls'⟩ := other
  obtain ⟨is, is', classes, recased, literal⟩ := alike
  unfold Piece.lexeme
  dsimp only at *
  cases classes with
  | number alike =>
    cases is with
    | number is =>
      generalize written : NumberParts.written _ = row at is'
      cases is' with
      | number is' => exact number_alike is is' alike _ _
  | same =>
    cases cls with
    | word => exact word_alike recased
    | number =>
      cases is with
      | number is => exact number_alike is is ⟨rfl, rfl, rfl⟩ _ _
    | text =>
      obtain rfl := literal rfl
      exact ⟨rfl, rfl, rfl, rfl⟩
    | openText => exact ⟨rfl, recased.sameName, rfl, rfl⟩
    | pair => exact operator_alike recased (.inl rfl)
    | single => exact operator_alike recased (.inr rfl)

/-! ## Requests -/

/-- Requests that bring tokens alike, after as many errors. -/
structure RequestOutcome.Alike (told other : RequestOutcome) : Prop where
  lexeme : Option.Rel Lexeme.Alike told.lexeme other.lexeme
  errors : told.issues.countP (·.level = .error) = other.issues.countP (·.level = .error)

theorem outcomes_alike {quote : Char} {pieces others : List Piece}
    (alike : List.Forall₂ (Piece.Alike quote) pieces others) (line line' lines lines' : Nat)
    (issues : List Diagnostic) :
    List.Forall₂ RequestOutcome.Alike (outcomes (tokenLines line pieces) lines issues)
      (outcomes (tokenLines line' others) lines' issues) := by
  induction alike generalizing line line' with
  | nil => exact .cons ⟨.none, rfl⟩ .nil
  | cons first _ ih => exact .cons ⟨.some first.lexeme, first.lexeme.errors⟩ (ih _ _)

theorem Scanned.like_of_outcome {item other : Scanned} (alike : item.outcome.Alike other.outcome) :
    item.Like Text.SameName other := by
  obtain ⟨lexemes, errors⟩ := alike
  rw [errors_outcome, errors_outcome] at errors
  obtain ⟨_, found, _⟩ := item
  obtain ⟨_, found', _⟩ := other
  cases lexemes with
  | none => exact ⟨rfl, .refl _, errors, .none⟩
  | @some found found' alike =>
    refine ⟨alike.kind, alike.text, errors, ?_⟩
    unfold Scanned.cell?
    dsimp only [Option.bind_some]
    rw [alike.registration]
    cases found'.registration with
    | none => exact .none
    | some registration => exact .some ⟨alike.text, rfl, rfl⟩

/-! ## Lines -/

/-- Streams of the same text but for the case of letters. -/
structure Stream.Recased (stream other : Stream) : Prop where
  chars : MiniPascal.Recased stream.chars other.chars
  failing : stream.failing = other.failing

theorem breakLines_recased {text other : List Char} (recased : Recased text other) :
    List.Forall₂ Recased (breakLines text).1 (breakLines other).1 ∧
      Recased (breakLines text).2 (breakLines other).2 := by
  induction recased with
  | nil => exact ⟨.nil, .nil⟩
  | @cons c d text other same later ih =>
    obtain ⟨lines, last⟩ := ih
    rw [breakLines, breakLines]
    have newline : c = '\n' ↔ d = '\n' := same.eq_iff (by decide)
    simp only [newline]
    split
    · exact ⟨.cons .nil lines, last⟩
    · generalize breakLines text = broken at *
      generalize breakLines other = broken' at *
      obtain ⟨lines, last⟩ := broken
      obtain ⟨lines', last'⟩ := broken'
      cases lines with
      | nil => exact ⟨.nil, .cons same last⟩
      | cons first lines => exact ⟨.cons (.cons same first) lines, last⟩

theorem dropReturn_recased {line other : List Char} (recased : Recased line other) :
    Recased (dropReturn line) (dropReturn other) := by
  rcases List.eq_nil_or_concat line with rfl | ⟨front, c, rfl⟩
  · rw [recased.eq_nil]
    exact .nil
  · rw [List.concat_eq_append] at recased ⊢
    obtain ⟨front', _, rfl, before, last⟩ := recased.split
    obtain ⟨d, _, rfl, same, none⟩ := last.uncons
    obtain rfl := none.eq_nil
    unfold dropReturn
    have carriage : c = '\r' ↔ d = '\r' := same.eq_iff (by decide)
    simp only [List.getLast?_concat, List.dropLast_concat, Option.some.injEq, carriage]
    split
    · exact before
    · exact recased

theorem joinLines_recased {lines others : List (List Char)} (recased : List.Forall₂ Recased lines others) :
    Recased (joinLines lines) (joinLines others) := by
  induction recased with
  | nil => exact .nil
  | cons first _ ih => exact (first.append (.cons (.inl rfl) .nil)).append ih

theorem Stream.Recased.lines {stream other : Stream} (recased : stream.Recased other) :
    List.Forall₂ MiniPascal.Recased stream.lines other.lines := by
  obtain ⟨lines, last⟩ := breakLines_recased recased.chars
  unfold Stream.lines
  dsimp only
  rw [recased.failing]
  have none : (breakLines stream.chars).2 = [] ↔ (breakLines other.chars).2 = [] := by
    rw [← List.length_eq_zero_iff, ← List.length_eq_zero_iff, last.length_eq]
  simp only [none]
  rw [List.forall₂_map_left_iff, List.forall₂_map_right_iff]
  refine List.Forall₂.imp (fun _ _ => dropReturn_recased) ?_
  split
  · exact lines
  · exact List.rel_append lines (.cons last .nil)

theorem sourceLines_recased {streams others : List Stream}
    (recased : List.Forall₂ Stream.Recased streams others) :
    List.Forall₂ Recased (sourceLines streams).1 (sourceLines others).1 ∧
      (sourceLines streams).2 = (sourceLines others).2 := by
  induction recased with
  | nil => exact ⟨.nil, rfl⟩
  | cons first _ ih =>
    obtain ⟨lines, failure⟩ := ih
    unfold sourceLines
    rw [first.failing]
    split
    · exact ⟨List.rel_append first.lines lines, failure⟩
    · exact ⟨first.lines, rfl⟩

/-! ## Compilations -/

/-- A text with letters outside its text literals in another case is compiled to the same verdict and
quads, and to cells whose names differ in case only. -/
theorem letter_case_does_not_matter {streams others : List Stream}
    (recased : List.Forall₂ Stream.Recased streams others) {options : CompileOptions}
    {pieces : List Piece} {tail : List Char} {opened : Bool}
    (reads : Reads options.quote (joinLines (sourceLines streams).1) pieces tail opened)
    (kept : KeepsLiterals pieces (joinLines (sourceLines others).1)) (watch : Watch) :
    let given := compile options (.ofStreams streams)
    let again := compile { options with watch } (.ofStreams others)
    given.verdict = again.verdict ∧ given.program.quads = again.program.quads ∧
      given.program.symbols.size = again.program.symbols.size ∧
      List.Forall₂ (Cell.Like Text.SameName) given.program.symbols.cells.toList
        again.program.symbols.cells.toList := by
  intro given again
  obtain ⟨lines, failure⟩ := sourceLines_recased recased
  obtain ⟨pieces', tail', reads', alike⟩ := reads.recased (joinLines_recased lines) kept
  have told := Lexing.unread_start options.maxSymbols options.watch reads
  have told' := Lexing.unread_start options.maxSymbols watch reads'
  have outcomes := outcomes_alike alike 1 1 (sourceLines streams).1.length (sourceLines others).1.length
    (endIssues opened (sourceLines streams).2)
  rw [← told, failure, ← told', List.forall₂_map_left_iff, List.forall₂_map_right_iff] at outcomes
  have like : given.Like Text.SameName again :=
    compile_alike .anyCase rfl rfl (outcomes.imp fun _ _ => Scanned.like_of_outcome)
  exact ⟨like.verdict, like.quads, like.symbols.size, like.symbols.cells⟩

/-- A program with a comment and an exponent, written again in another case up to its text literal. -/
theorem shouted_program_compiles_alike :
    let front := "unit p;\x7bA\x7dbegin x:=1E2;writeln(".toList
    let other := "Unit P;\x7ba\x7dBEGIN X:=1e2;WriteLn(".toList
    let back := "'aB')end.\n".toList
    let streams : List Stream := [{ name := [], later := [⟨front ++ back, 0⟩] }]
    let others : List Stream := [{ name := [], ready := other, later := [⟨back, 0⟩] }]
    let options : CompileOptions := {}
    let given := compile options (.ofStreams streams)
    let again := compile { options with watch := { diagnostics := true } } (.ofStreams others)
    List.Forall₂ Stream.Recased streams others ∧
    (∃ pieces tail opened, Reads options.quote (joinLines (sourceLines streams).1) pieces tail opened ∧
      KeepsLiterals pieces (joinLines (sourceLines others).1)) ∧
    given.program.symbols.size = 4 ∧ given.verdict = again.verdict ∧
    given.program.quads = again.program.quads ∧
    List.Forall₂ (Cell.Like Text.SameName) given.program.symbols.cells.toList
      again.program.symbols.cells.toList := by
  intro front other back streams others options given again
  obtain ⟨chars, text, text', plain, cells⟩ : Recased (front ++ back) (other ++ back) ∧
      joinLines (sourceLines streams).1 = front ++ back ∧
      joinLines (sourceLines others).1 = other ++ back ∧ '\'' ∉ front ∧
      given.program.symbols.size = 4 := by
    decide +kernel
  have size : other.length = front.length := by
    have whole := chars.length_eq
    simpa using whole
  have recased : List.Forall₂ Stream.Recased streams others := by
    refine .cons ⟨?_, rfl⟩ .nil
    simpa [Stream.chars] using chars
  have quote : options.quote = '\'' := rfl
  clear_value front other back streams others options
  obtain ⟨pieces, tail, opened, reads, _⟩ := Lexing.start_outcomes options.quote 0 {} streams
  have kept : KeepsLiterals pieces (joinLines (sourceLines others).1) := by
    rw [text']
    exact .of_front (text ▸ reads) (quote ▸ plain) size
  obtain ⟨verdict, quads, _, names⟩ :=
    letter_case_does_not_matter recased reads kept { diagnostics := true }
  exact ⟨recased, ⟨pieces, tail, opened, reads, kept⟩, cells, verdict, quads, names⟩

end MiniPascal
