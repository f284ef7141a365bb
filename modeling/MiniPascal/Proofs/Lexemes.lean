import MiniPascal.Compiler.Emit
import Mathlib.Tactic.Common

/-! # The shape of lexemes

The scanner gives a symbol to identifiers and literals, and to nothing else. The first character
tells an identifier, a number and a text literal apart, and it survives folding. So no lexeme is
spelled like a temporary or like the constant -1, whatever the quote character, and the constant 1 is
only ever spelled by an integer literal with that value.
-/

namespace MiniPascal

/-- The kinds of tokens that have symbols. -/
def TokenKind.hasSymbol : TokenKind → Bool
  | identifier | integerLiteral | realLiteral | textLiteral => true
  | _ => false

/-- The characters of a real number besides its digits. -/
def isMark (c : Char) : Prop := c = '.' ∨ c = 'e' ∨ c = 'E' ∨ c = '+' ∨ c = '-'

/-- The characters of a number. -/
def isNumeral (c : Char) : Prop := isDigit c = true ∨ isMark c

/-- What is known of a lexeme by its kind. -/
inductive Lexeme.Proper (quote : Char) (found : Lexeme) : Prop
  | identifier {c : Char} {rest : List Char} (is : found.token.kind = .identifier)
      (registers : found.registration = some ⟨.var, .int 0⟩)
      (starts : found.token.lexeme = c :: rest) (letter : Scan.isLetter c = true)
  | integer {n : Int64} {c : Char} {rest : List Char} (is : found.token.kind = .integerLiteral)
      (registers : found.registration = some ⟨.constant, .int n⟩)
      (denotes : readWhole? found.token.lexeme = some n)
      (starts : found.token.lexeme = c :: rest) (digit : isDigit c = true)
  | real {x : Float} {c : Char} {rest : List Char} (is : found.token.kind = .realLiteral)
      (registers : found.registration = some ⟨.constant, .real x⟩)
      (starts : found.token.lexeme = c :: rest) (digit : isDigit c = true) (long : rest ≠ [])
      (denotes : readReal? found.token.lexeme = some x) (marked : ∃ c ∈ found.token.lexeme, isMark c)
      (plain : ∀ c ∈ found.token.lexeme, isNumeral c)
  | text {inner : List Char} (is : found.token.kind = .textLiteral)
      (registers : found.registration = some ⟨.constant, .text (.ofChars inner)⟩)
      (encloses : found.token.lexeme = quote :: inner ++ [quote])
  | plain (is : found.token.kind.hasSymbol = false) (more : found.token.kind ≠ .endOfInput)
      (registers : found.registration = none)

namespace Scan

theorem reserved_kind {name : Text} {kind : TokenKind}
    (found : TokenKind.reserved.lookupName? name = some kind) :
    kind.hasSymbol = false ∧ kind ≠ .endOfInput := by
  obtain ⟨i, _, here⟩ := Option.bind_eq_some_iff.mp found
  obtain ⟨row, stored, rfl⟩ := Option.map_eq_some_iff.mp here
  have all : ∀ row ∈ TokenKind.reserved.rows, row.2.hasSymbol = false ∧ row.2 ≠ .endOfInput := by
    decide +kernel
  exact all row (Array.mem_of_getElem? stored)

theorem cutTo_cons (limit : Nat) (c : Char) (rest : List Char) (complain : List Char → Diagnostic) :
    ∃ kept, (cutTo (limit + 1) (c :: rest) complain).1 = c :: kept := by
  unfold cutTo
  split
  · exact ⟨rest, rfl⟩
  · exact ⟨rest.take limit, rfl⟩

theorem word_proper {quote c : Char} {rest : List Char} (letter : isLetter c = true) :
    (word (c :: rest)).Proper quote := by
  have ⟨kept, cut⟩ := cutTo_cons 19 c rest Diagnostic.identifierCut
  unfold word
  simp only [lexemeLimits, cut]
  split
  · rename_i kind found
    exact .plain (reserved_kind found).1 (reserved_kind found).2 rfl
  · exact .identifier rfl rfl rfl letter

theorem mem_of_cutTo {limit : Nat} {row : List Char} {complain : List Char → Diagnostic} {c : Char}
    (member : c ∈ (cutTo limit row complain).1) : c ∈ row := by
  unfold cutTo at member
  split at member
  · exact member
  · exact List.mem_of_mem_take member

/-- The parts of a number as they are taken from a row of characters. -/
structure NumberParts.Proper (parts : NumberParts) (c : Char) (rest : List Char) : Prop where
  starts : parts.whole = c :: rest
  whole : ∀ d ∈ parts.whole, isDigit d = true
  fraction : ∀ digits, parts.fraction = some digits → ∀ d ∈ digits, isDigit d = true
  exponent : ∀ mark digits, parts.exponent = some (mark, digits) →
    mark ≠ [] ∧ (∀ d ∈ mark, isMark d) ∧ ∀ d ∈ digits, isDigit d = true

theorem exponent_cut {mark digits : List Char} {complain : List Char → Diagnostic}
    (proper : mark ≠ [] ∧ (∀ d ∈ mark, isMark d) ∧ ∀ d ∈ digits, isDigit d = true) (limit : Nat) :
    (∀ d ∈ mark ++ (cutTo limit digits complain).1, isNumeral d) ∧
      ∃ d ∈ mark ++ (cutTo limit digits complain).1, isMark d := by
  obtain ⟨some, marks, digits⟩ := proper
  constructor
  · intro d member
    obtain member | member := List.mem_append.mp member
    · exact .inr (marks d member)
    · exact .inl (digits d (mem_of_cutTo member))
  · obtain ⟨d, member⟩ := List.exists_mem_of_ne_nil _ some
    exact ⟨d, List.mem_append_left _ member, marks d member⟩

/-- A number keeps its first digit and consists of digits and marks; a real one keeps its point or
exponent mark. -/
theorem cut_cons {parts : NumberParts} {c : Char} {rest : List Char} (proper : parts.Proper c rest) :
    (∃ kept, parts.cut.1 = c :: kept) ∧ (∀ d ∈ parts.cut.1, isNumeral d) ∧
      ((parts.fraction.isNone && parts.exponent.isNone) = false → ∃ d ∈ parts.cut.1, isMark d) := by
  obtain ⟨kept, cut⟩ := cutTo_cons 5 c rest Diagnostic.wholeCut
  have whole : ∀ d ∈ c :: kept, isNumeral d := by
    intro d member
    rw [← cut] at member
    exact .inl (proper.whole d (proper.starts ▸ mem_of_cutTo member))
  unfold NumberParts.cut
  simp only [lexemeLimits, proper.starts, cut]
  cases fraction : parts.fraction with
  | none =>
    cases exponent : parts.exponent with
    | none => exact ⟨⟨kept, rfl⟩, whole, by simp⟩
    | some exponent =>
      obtain ⟨plain, d, member, mark⟩ := exponent_cut (proper.exponent _ _ exponent) 3
      simp only [List.append_assoc]
      refine ⟨⟨_, rfl⟩, List.forall_mem_append.mpr ⟨whole, plain⟩, fun _ => ?_⟩
      exact ⟨d, List.mem_append_right _ member, mark⟩
  | some digits =>
    have point : ∀ d ∈ (c :: kept) ++ ['.'], isNumeral d :=
      List.forall_mem_append.mpr ⟨whole, by simp [isNumeral, isMark]⟩
    have fraction : ∀ d ∈ (cutTo 12 digits fun kept' => .fractionCut (c :: kept ++ ['.'] ++ kept')).1,
        isNumeral d :=
      fun d member => .inl (proper.fraction _ fraction d (mem_of_cutTo member))
    cases taken : parts.exponent with
    | none =>
      refine ⟨⟨_, rfl⟩, List.forall_mem_append.mpr ⟨point, fraction⟩, fun _ => ⟨'.', ?_, .inl rfl⟩⟩
      simp
    | some exponent =>
      obtain ⟨plain, _⟩ := exponent_cut (proper.exponent _ _ taken) 3
      refine ⟨⟨_, rfl⟩, ?_, fun _ => ⟨'.', ?_, .inl rfl⟩⟩
      · simp only [List.append_assoc _ exponent.1]
        exact List.forall_mem_append.mpr ⟨List.forall_mem_append.mpr ⟨point, fraction⟩, plain⟩
      · simp

theorem not_digit_of_mark {c : Char} (mark : isMark c) : isDigit c = false := by
  obtain rfl | rfl | rfl | rfl | rfl := mark <;> decide

theorem number_proper {quote : Char} {parts : NumberParts} {c : Char} {rest : List Char}
    (proper : parts.Proper c rest) : (number parts).Proper quote := by
  obtain ⟨⟨kept, cut⟩, plain, marked⟩ := cut_cons proper
  have digit : isDigit c = true := proper.whole c (by simp [proper.starts])
  unfold number
  simp only
  split
  · rename_i kind value read
    split at read
    · obtain ⟨n, here, same⟩ := Option.map_eq_some_iff.mp read
      cases same
      exact .integer rfl rfl here cut digit
    · rename_i notWhole
      obtain ⟨x, here, same⟩ := Option.map_eq_some_iff.mp read
      cases same
      have marked := marked (by simpa only [Bool.not_eq_true] using notWhole)
      have long : kept ≠ [] := by
        rintro rfl
        obtain ⟨d, member, mark⟩ := marked
        rw [cut, List.mem_singleton] at member
        rw [← member, not_digit_of_mark mark] at digit
        cases digit
      exact .real rfl rfl cut digit long here marked plain
  · exact .plain rfl nofun rfl

theorem takeExponent_proper {row mark digits : List Char}
    (taken : (takeExponent row).1 = some (mark, digits)) :
    mark ≠ [] ∧ (∀ d ∈ mark, isMark d) ∧ ∀ d ∈ digits, isDigit d = true := by
  unfold takeExponent at taken
  split at taken
  · split at taken
    · rename_i letter
      have letter : isMark _ := letter.elim (fun big => .inr (.inr (.inl big))) fun small =>
        .inr (.inl small)
      split at taken
      · rename_i sign
        cases taken
        have sign : ∀ d ∈ [_], isMark d := List.forall_mem_singleton.mpr (.inr (.inr (.inr sign)))
        have marks := List.forall_mem_cons.mpr ⟨letter, sign⟩
        exact ⟨List.cons_ne_nil _ _, marks, List.all_eq_true.mp List.all_takeWhile⟩
      · split at taken
        · cases taken
          exact ⟨List.cons_ne_nil _ _, List.forall_mem_singleton.mpr letter,
            List.all_eq_true.mp List.all_takeWhile⟩
        · cases taken
    · cases taken
  · cases taken

theorem takeFraction_proper {row digits : List Char} (taken : (takeFraction row).1 = some digits) :
    ∀ d ∈ digits, isDigit d = true := by
  unfold takeFraction at taken
  split at taken
  · cases taken
    exact List.all_eq_true.mp List.all_takeWhile
  · cases taken

theorem takeNumber_proper {c : Char} {row : List Char} (digit : isDigit c = true) :
    (takeNumber (c :: row)).1.Proper c (row.takeWhile isDigit) where
  starts := by simp [takeNumber, digit]
  whole := List.all_eq_true.mp List.all_takeWhile
  fraction _ := takeFraction_proper
  exponent _ _ := takeExponent_proper

theorem textLiteral_proper (quote : Char) (row : List Char) :
    (textLiteral quote row).1.Proper quote := by
  unfold textLiteral
  simp only
  split
  · exact .plain rfl nofun rfl
  · exact .text rfl rfl rfl

theorem operatorKind_plain (lexeme : List Char) :
    (operatorKind lexeme).hasSymbol = false ∧ operatorKind lexeme ≠ .endOfInput := by
  unfold operatorKind
  cases found : TokenKind.reserved.lookupName? (.ofChars lexeme) with
  | none => exact ⟨rfl, nofun⟩
  | some kind => exact reserved_kind found

theorem operator_proper {quote : Char} (c : Char) (row : List Char) :
    (operator c row).1.Proper quote := by
  have plain (lexeme : List Char) : Lexeme.Proper quote { token := ⟨lexeme, operatorKind lexeme⟩ } := by
    have known := operatorKind_plain lexeme
    generalize operatorKind lexeme = kind at known
    exact .plain known.1 known.2 rfl
  unfold operator
  split
  · split <;> exact plain _
  · exact plain _

theorem lexeme_proper (quote c : Char) (row : List Char) : (lexeme quote c row).1.Proper quote := by
  unfold lexeme
  split
  · rename_i letter
    dsimp only
    exact word_proper letter
  · split
    · rename_i digit
      exact number_proper (takeNumber_proper digit)
    · split
      · exact textLiteral_proper quote row
      · exact operator_proper c row

/-- What is known of the token at any place is known of all tokens. -/
theorem items_all {quote : Char} {good : Lexeme → Prop} (all : ∀ c row, good (lexeme quote c row).1)
    (failure : Option Failure) (fuel : Nat) (place : Place) :
    ∀ item ∈ items quote failure fuel place, ∀ found, item.lexeme = some found → good found := by
  induction fuel generalizing place with
  | zero => simp [items]
  | succ fuel ih =>
    intro item member found here
    unfold items at member
    split at member
    · obtain rfl := List.mem_singleton.mp member
      cases here
    · obtain rfl | member := List.mem_cons.mp member
      · cases here
        exact all ..
      · exact ih _ item member found here

theorem items_proper (quote : Char) (failure : Option Failure) (fuel : Nat) (place : Place) :
    ∀ item ∈ items quote failure fuel place, ∀ found, item.lexeme = some found →
      found.Proper quote :=
  items_all (lexeme_proper quote) failure fuel place

end Scan

/-! ## Folding -/

private theorem ascii_of_letter {c : Char} (letter : Scan.isLetter c = true) : c.toNat < 128 := by
  simp only [Scan.isLetter, Bool.or_eq_true, Bool.and_eq_true, decide_eq_true_eq, Char.le_def,
    UInt32.le_iff_toNat_le] at letter
  simp at letter
  omega

private theorem ascii_of_digit {c : Char} (digit : isDigit c = true) : c.toNat < 128 := by
  simp only [isDigit, Bool.and_eq_true, decide_eq_true_eq, Char.le_def,
    UInt32.le_iff_toNat_le] at digit
  simp at digit
  omega

theorem upperCase_letter {c : Char} (letter : Scan.isLetter c = true) :
    Scan.isLetter (upperCase c) = true := by
  have all : ∀ n < 128, Scan.isLetter (Char.ofNat n) = true →
      Scan.isLetter (upperCase (Char.ofNat n)) = true := by decide +kernel
  have here := all c.toNat (ascii_of_letter letter)
  rw [Char.ofNat_toNat] at here
  exact here letter

/-- The mark of an exponent has two cases. -/
theorem eq_mark_of_upperCase {c : Char} (letter : Scan.isLetter c = true) (upper : upperCase c = 'E') :
    c = 'E' ∨ c = 'e' := by
  have all : ∀ n < 128, Scan.isLetter (Char.ofNat n) = true → upperCase (Char.ofNat n) = 'E' →
      Char.ofNat n = 'E' ∨ Char.ofNat n = 'e' := by decide +kernel
  have here := all c.toNat (ascii_of_letter letter)
  rw [Char.ofNat_toNat] at here
  exact here letter upper

theorem upperCase_digit {c : Char} (digit : isDigit c = true) : upperCase c = c := by
  have all : ∀ n < 128, isDigit (Char.ofNat n) = true →
      upperCase (Char.ofNat n) = Char.ofNat n := by decide +kernel
  have here := all c.toNat (ascii_of_digit digit)
  rw [Char.ofNat_toNat] at here
  exact here digit

theorem not_letter_of_digit {c : Char} (digit : isDigit c = true) : Scan.isLetter c = false := by
  have all : ∀ n < 128, isDigit (Char.ofNat n) = true → Scan.isLetter (Char.ofNat n) = false := by
    decide +kernel
  have here := all c.toNat (ascii_of_digit digit)
  rw [Char.ofNat_toNat] at here
  exact here digit

theorem isDigit_toDigits {n : Nat} {c : Char} (member : c ∈ Nat.toDigits 10 n) : isDigit c = true := by
  have digit := Nat.isDigit_of_mem_toDigits (by decide) (by decide) member
  simpa [Char.isDigit, isDigit, Char.le_def] using digit

/-- Digits are the same in either case. -/
theorem Text.fold_ofNat (n : Nat) : (Text.ofNat n).fold = Nat.toDigits 10 n := by
  rw [Text.ofNat, Text.fold_ofChars, List.map_congr_left fun c member =>
    upperCase_digit (isDigit_toDigits member)]
  exact List.map_id' _

theorem Rule.fold_temporaryName (n : Nat) :
    (temporaryName n).fold = '@' :: 'T' :: Nat.toDigits 10 n := by
  have parts : temporaryName n = Text.ofChars ['@', 'T'] ++ Text.ofNat n := by
    simp [temporaryName, Text.join, Text.ofString]
  have split : (temporaryName n).fold = (Text.ofChars ['@', 'T']).fold ++ (Text.ofNat n).fold := by
    rw [parts]
    exact List.map_append
  rw [split, Text.fold_ofNat]
  rfl

/-- Temporaries with different numbers have different names. -/
theorem Rule.temporaryName_inj {m n : Nat} (same : (temporaryName m).SameName (temporaryName n)) :
    m = n := by
  unfold Text.SameName at same
  rw [fold_temporaryName, fold_temporaryName] at same
  have digits := congrArg (fun cs => Nat.ofDigitChars 10 (cs.drop 2) 0) same
  simpa [Nat.ofDigitChars_ten_toDigits] using digits

theorem Text.fold_one : (Text.ofInt 1).fold = ['1'] := by decide +kernel

theorem Text.fold_minusOne : (Text.ofInt (-1)).fold = ['-', '1'] := by decide +kernel

/-- The compiler's own symbols are spelled unlike each other. -/
theorem Rule.temporaryName_ne {n : Nat} {m : Int} (unit : m = 1 ∨ m = -1) :
    ¬ (Text.ofInt m).SameName (temporaryName n) := by
  unfold Text.SameName
  rw [fold_temporaryName]
  obtain rfl | rfl := unit
  · rw [Text.fold_one]
    simp
  · rw [Text.fold_minusOne]
    simp

namespace Lexeme.Proper

variable {quote : Char} {found : Lexeme} {registration : Registration}

theorem exists_registration (proper : found.Proper quote) (is : found.token.kind.hasSymbol = true) :
    ∃ registration, found.registration = some registration := by
  cases proper with
  | identifier _ registers | integer _ registers | real _ registers | text _ registers =>
    exact ⟨_, registers⟩
  | plain other => simp [other] at is

theorem usage (proper : found.Proper quote) (registers : found.registration = some registration) :
    registration.usage ≠ .program := by
  cases proper with
  | identifier _ here | integer _ here | real _ here | text _ here =>
    rw [here] at registers
    cases registers
    nofun
  | plain _ _ none => simp [none] at registers

/-- The first character of a folded name tells what it is, and the last one of a text literal is
its first one too. -/
theorem fold_cases (proper : found.Proper quote) (registers : found.registration = some registration) :
    (found.token.kind = .identifier ∧
      ∃ c rest, found.token.text.fold = c :: rest ∧ Scan.isLetter c = true) ∨
    ((found.token.kind = .integerLiteral ∨ found.token.kind = .realLiteral) ∧
      ∃ c rest, found.token.text.fold = c :: rest ∧ isDigit c = true) ∨
    (found.token.kind = .textLiteral ∧
      ∃ inner, found.token.text.fold = upperCase quote :: inner ++ [upperCase quote]) := by
  cases proper with
  | @identifier c rest is _ starts letter =>
    refine .inl ⟨is, upperCase c, rest.map upperCase, ?_, upperCase_letter letter⟩
    rw [Token.text, Text.fold_ofChars, starts, List.map_cons]
  | @integer _ c rest is _ _ starts digit =>
    refine .inr (.inl ⟨.inl is, c, rest.map upperCase, ?_, digit⟩)
    rw [Token.text, Text.fold_ofChars, starts, List.map_cons, upperCase_digit digit]
  | @real _ c rest is _ starts digit =>
    refine .inr (.inl ⟨.inr is, c, rest.map upperCase, ?_, digit⟩)
    rw [Token.text, Text.fold_ofChars, starts, List.map_cons, upperCase_digit digit]
  | @text inner is _ encloses =>
    refine .inr (.inr ⟨is, inner.map upperCase, ?_⟩)
    rw [Token.text, Text.fold_ofChars, encloses]
    simp
  | plain _ _ none => simp [none] at registers

/-- No lexeme is spelled like a temporary. -/
theorem not_temporary (proper : found.Proper quote) (registers : found.registration = some registration)
    (n : Nat) : ¬ found.token.text.SameName (Rule.temporaryName n) := by
  intro same
  unfold Text.SameName at same
  rw [Rule.fold_temporaryName] at same
  obtain ⟨_, c, rest, fold, letter⟩ | ⟨_, c, rest, fold, digit⟩ | ⟨_, inner, fold⟩ :=
    proper.fold_cases registers
  · rw [fold] at same
    cases same
    revert letter
    decide
  · rw [fold] at same
    cases same
    revert digit
    decide
  · -- the first character would have to be the last one, which is a digit
    obtain none | ⟨init, last, digits⟩ := List.eq_nil_or_concat (Nat.toDigits 10 n)
    · exact Nat.toDigits_ne_nil none
    · have digit : isDigit last = true := isDigit_toDigits (n := n) (by simp [digits])
      rw [fold, digits] at same
      rw [List.concat_eq_append] at same
      have same : upperCase quote :: inner ++ [upperCase quote] = '@' :: 'T' :: init ++ [last] := same
      have ends := List.append_inj_right' same rfl
      have first : upperCase quote = '@' := (List.cons.inj same).1
      rw [← List.singleton_inj.mp ends, first] at digit
      revert digit
      decide

/-- No lexeme is spelled like the constant -1. -/
theorem not_minusOne (proper : found.Proper quote) (registers : found.registration = some registration) :
    ¬ found.token.text.SameName (.ofInt (-1)) := by
  intro same
  unfold Text.SameName at same
  rw [Text.fold_minusOne] at same
  obtain ⟨_, c, rest, fold, letter⟩ | ⟨_, c, rest, fold, digit⟩ | ⟨_, inner, fold⟩ :=
    proper.fold_cases registers
  · rw [fold] at same
    cases same
    revert letter
    decide
  · rw [fold] at same
    cases same
    revert digit
    decide
  · rw [fold] at same
    have same : upperCase quote :: inner ++ [upperCase quote] = ['-'] ++ ['1'] := same
    have ends := List.append_inj_right' same rfl
    have first : upperCase quote = '-' := (List.cons.inj same).1
    rw [first] at ends
    revert ends
    decide

/-- Only an integer literal that denotes 1 is spelled like the constant 1. -/
theorem one (proper : found.Proper quote) (registers : found.registration = some registration)
    (same : found.token.text.SameName (.ofInt 1)) : registration = ⟨.constant, .int 1⟩ := by
  unfold Text.SameName at same
  rw [Text.fold_one, Token.text, Text.fold_ofChars] at same
  cases proper with
  | identifier _ _ starts letter =>
    rw [starts] at same
    have letter := upperCase_letter letter
    rw [(List.cons.inj same).1] at letter
    exact absurd letter (by decide)
  | @integer n c rest _ here denotes starts digit =>
    rw [starts, List.map_cons, upperCase_digit digit] at same
    obtain ⟨rfl, rest⟩ := List.cons.inj same
    rw [starts, List.map_eq_nil_iff.mp rest] at denotes
    have value : readWhole? ['1'] = some 1 := by decide +kernel
    rw [value] at denotes
    cases denotes
    rw [here] at registers
    exact (Option.some.inj registers).symm
  | real _ _ starts _ long =>
    rw [starts] at same
    exact absurd (List.map_eq_nil_iff.mp (List.cons.inj same).2) long
  | text _ _ encloses =>
    rw [encloses] at same
    simp at same
  | plain _ _ none => simp [none] at registers

end Lexeme.Proper

/-! ## Words -/

/-- A name that starts with a letter, whatever the case. -/
def Text.IsWord (name : Text) : Prop := ∃ c rest, name.fold = c :: rest ∧ Scan.isLetter c = true

theorem Text.IsWord.congr {first second : Text} (word : first.IsWord) (same : first.SameName second) :
    second.IsWord := by
  obtain ⟨c, rest, fold, letter⟩ := word
  exact ⟨c, rest, same ▸ fold, letter⟩

theorem Text.not_isWord_of_head {name : Text} {c : Char} {rest : List Char} (fold : name.fold = c :: rest)
    (other : Scan.isLetter c = false) : ¬ name.IsWord := by
  rintro ⟨_, _, here, letter⟩
  rw [fold] at here
  rw [← (List.cons.inj here).1, other] at letter
  cases letter

theorem not_isWord_unit {n : Int64} (unit : n = 1 ∨ n = -1) : ¬ (Text.ofInt n.toInt).IsWord := by
  obtain rfl | rfl := unit
  · exact Text.not_isWord_of_head Text.fold_one (by decide)
  · exact Text.not_isWord_of_head Text.fold_minusOne (by decide)

theorem not_isWord_temporary (n : Nat) : ¬ (Rule.temporaryName n).IsWord :=
  Text.not_isWord_of_head (Rule.fold_temporaryName n) (by decide)

theorem Lexeme.Proper.isWord {quote : Char} {found : Lexeme} {registration : Registration}
    (proper : found.Proper quote) (registers : found.registration = some registration)
    (is : found.token.kind = .identifier) : found.token.text.IsWord := by
  obtain ⟨_, word⟩ | ⟨other, _⟩ | ⟨other, _⟩ := proper.fold_cases registers
  · exact word
  · rw [is] at other
    obtain absurd | absurd := other
    · cases absurd
    · cases absurd
  · rw [is] at other
    cases other

end MiniPascal
