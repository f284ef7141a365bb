import MiniPascal.Proofs.Lexemes
import MiniPascal.Proofs.Semantics

/-! # Numbers in either case

The table of symbols finds a literal without regard to case. In a number only the exponent mark has two
cases, and both are read alike, so numbers that share a symbol have one value.
-/

namespace MiniPascal

/-! ## Reading a real -/

theorem isDigit_upperCase {c : Char} (numeral : isNumeral c) : isDigit (upperCase c) = isDigit c := by
  obtain digit | mark := numeral
  · rw [upperCase_digit digit]
  · obtain rfl | rfl | rfl | rfl | rfl := mark <;> decide

theorem upperCase_eq_sign {c : Char} (numeral : isNumeral c) {sign : Char}
    (is : sign = '.' ∨ sign = '+' ∨ sign = '-') : upperCase c = sign ↔ c = sign := by
  obtain digit | mark := numeral
  · rw [upperCase_digit digit]
  · obtain rfl | rfl | rfl | rfl | rfl := mark <;> obtain rfl | rfl | rfl := is <;> decide

theorem upperCase_eq_e {c : Char} (numeral : isNumeral c) :
    (upperCase c = 'e' ∨ upperCase c = 'E') ↔ (c = 'e' ∨ c = 'E') := by
  obtain digit | mark := numeral
  · rw [upperCase_digit digit]
  · obtain rfl | rfl | rfl | rfl | rfl := mark <;> decide

theorem map_upperCase_digits {chars : List Char} (digits : ∀ c ∈ chars, isDigit c = true) :
    chars.map upperCase = chars := by
  rw [List.map_congr_left fun c member => upperCase_digit (digits c member)]
  exact List.map_id' _

theorem takeWhile_upperCase {chars : List Char} (plain : ∀ c ∈ chars, isNumeral c) :
    (chars.map upperCase).takeWhile isDigit = chars.takeWhile isDigit ∧
      (chars.map upperCase).dropWhile isDigit = (chars.dropWhile isDigit).map upperCase := by
  induction chars with
  | nil => exact ⟨rfl, rfl⟩
  | cons c chars ih =>
    obtain ⟨here, later⟩ := List.forall_mem_cons.mp plain
    rw [List.map_cons, List.takeWhile_cons, List.dropWhile_cons, isDigit_upperCase here,
      List.takeWhile_cons, List.dropWhile_cons]
    cases digit : isDigit c with
    | false => exact ⟨rfl, rfl⟩
    | true =>
      rw [upperCase_digit digit]
      exact (ih later).imp (congrArg (c :: ·)) id

theorem all_upperCase {chars : List Char} (plain : ∀ c ∈ chars, isNumeral c) :
    (chars.map upperCase).all isDigit = chars.all isDigit := by
  rw [Bool.eq_iff_iff, List.all_eq_true, List.all_eq_true, List.forall_mem_map]
  exact forall₂_congr fun c member => by rw [isDigit_upperCase (plain c member)]

theorem exponentValue_upperCase {chars : List Char} (plain : ∀ c ∈ chars, isNumeral c) :
    exponentValue? (chars.map upperCase) = exponentValue? chars := by
  by_cases digits : chars.all isDigit = true
  · rw [map_upperCase_digits (List.all_eq_true.mp digits)]
  · unfold exponentValue?
    rw [all_upperCase plain, if_neg (fun both => digits both.2), if_neg (fun both => digits both.2)]

/-- Rows of digits without a sign. -/
theorem readExponent_unsigned {c : Char} {chars : List Char} (minus : c ≠ '-') (plus : c ≠ '+') :
    readExponent? (c :: chars) = (exponentValue? (c :: chars)).map fun n => (n : Int) := by
  rw [readExponent?]
  · rintro _ same
    exact minus (List.cons.inj same).1
  · rintro _ same
    exact plus (List.cons.inj same).1

theorem readExponent_upperCase {chars : List Char} (plain : ∀ c ∈ chars, isNumeral c) :
    readExponent? (chars.map upperCase) = readExponent? chars := by
  cases chars with
  | nil => rfl
  | cons c chars =>
    obtain ⟨here, later⟩ := List.forall_mem_cons.mp plain
    have minus := upperCase_eq_sign here (.inr (.inr rfl))
    have plus := upperCase_eq_sign here (.inr (.inl rfl))
    by_cases isMinus : c = '-'
    · rw [List.map_cons, minus.mpr isMinus, isMinus, readExponent?, readExponent?,
        exponentValue_upperCase later]
    by_cases isPlus : c = '+'
    · rw [List.map_cons, plus.mpr isPlus, isPlus, readExponent?, readExponent?,
        exponentValue_upperCase later]
    rw [List.map_cons, readExponent_unsigned (minus.not.mpr isMinus) (plus.not.mpr isPlus),
      readExponent_unsigned isMinus isPlus, ← List.map_cons, exponentValue_upperCase plain]

theorem splitPoint_of_point {chars more : List Char} (point : chars.dropWhile isDigit = '.' :: more) :
    splitPoint isDigit chars =
      (chars.takeWhile isDigit, more.takeWhile isDigit, more.dropWhile isDigit) := by
  unfold splitPoint
  simp only [point]

theorem splitPoint_of_no_point {chars : List Char}
    (none : ∀ more, chars.dropWhile isDigit ≠ '.' :: more) :
    splitPoint isDigit chars = (chars.takeWhile isDigit, [], chars.dropWhile isDigit) := by
  unfold splitPoint
  split
  · rename_i more point
    exact absurd point (none more)
  · rfl

theorem splitPoint_upperCase {chars : List Char} (plain : ∀ c ∈ chars, isNumeral c) :
    splitPoint isDigit (chars.map upperCase) =
      ((splitPoint isDigit chars).1, (splitPoint isDigit chars).2.1,
        (splitPoint isDigit chars).2.2.map upperCase) := by
  obtain ⟨taken, dropped⟩ := takeWhile_upperCase plain
  have kept : ∀ c ∈ chars.dropWhile isDigit, isNumeral c :=
    fun c member => plain c ((List.dropWhile_sublist _).mem member)
  by_cases point : ∃ more, chars.dropWhile isDigit = '.' :: more
  · obtain ⟨more, point⟩ := point
    rw [point] at dropped kept
    obtain ⟨takenAfter, droppedAfter⟩ := takeWhile_upperCase (List.forall_mem_cons.mp kept).2
    rw [splitPoint_of_point point, splitPoint_of_point dropped, taken, takenAfter, droppedAfter]
  · have none := not_exists.mp point
    have still : ∀ more, (chars.map upperCase).dropWhile isDigit ≠ '.' :: more := by
      intro more same
      rw [dropped] at same
      obtain ⟨c, later, split, upper, _⟩ := List.map_eq_cons_iff.mp same
      rw [split] at kept
      rw [(upperCase_eq_sign (kept c List.mem_cons_self) (.inl rfl)).mp upper] at split
      exact none later split
    rw [splitPoint_of_no_point none, splitPoint_of_no_point still, taken, dropped]

/-- A real is read the same in either case. -/
theorem readReal_upperCase {chars : List Char} (plain : ∀ c ∈ chars, isNumeral c) :
    readReal? (chars.map upperCase) = readReal? chars := by
  have upper := splitPoint_upperCase plain
  rcases parts : splitPoint isDigit chars with ⟨whole, fraction, ends⟩
  rw [parts] at upper
  have after : ∀ c ∈ ends, isNumeral c := by
    intro c member
    apply plain c
    obtain rfl | rfl := eq_of_splitPoint parts
    · simp [member]
    · simp [member]
  have same : readDecimal? (chars.map upperCase) = readDecimal? chars := by
    unfold readDecimal?
    rw [upper, parts]
    dsimp only
    split
    · rfl
    · cases ends with
      | nil => rfl
      | cons mark exponent =>
        obtain ⟨here, later⟩ := List.forall_mem_cons.mp after
        simp only [List.map_cons, upperCase_eq_e here, readExponent_upperCase later]
  unfold readReal?
  rw [same]

/-! ## Literals -/

/-- A number that starts with a digit has no sign. -/
theorem readWhole_unsigned {c : Char} {rest : List Char} (digit : isDigit c = true) :
    readWhole? (c :: rest) = (readDigits? (c :: rest)).bind fun n => word? n := by
  have other (sign : Char) (is : isDigit sign = false) : ∀ digits, c :: rest = sign :: digits → False := by
    rintro _ same
    rw [(List.cons.inj same).1, is] at digit
    cases digit
  rw [readWhole?]
  · exact other '-' (by decide)
  · exact other '+' (by decide)

theorem readDigits_eq_none {chars : List Char} {c : Char} (member : c ∈ chars)
    (other : isDigit c = false) : readDigits? chars = none := by
  unfold readDigits?
  rw [if_neg]
  rintro ⟨_, all⟩
  rw [List.all_eq_true.mp all c member] at other
  cases other

theorem numberValue_upperCase {c : Char} {rest : List Char} (digit : isDigit c = true)
    (plain : ∀ d ∈ c :: rest, isNumeral d) :
    numberValue? ((c :: rest).map upperCase) = numberValue? (c :: rest) := by
  have digits : readDigits? ((c :: rest).map upperCase) = readDigits? (c :: rest) := by
    by_cases digits : (c :: rest).all isDigit = true
    · rw [map_upperCase_digits (List.all_eq_true.mp digits)]
    · unfold readDigits?
      rw [all_upperCase plain, if_neg (fun both => digits both.2),
        if_neg (fun both => digits both.2)]
  unfold numberValue?
  rw [readReal_upperCase plain, readWhole_unsigned digit, ← digits, List.map_cons,
    upperCase_digit digit, readWhole_unsigned digit]

namespace Lexeme.Proper

variable {quote : Char} {found other : Lexeme} {registration registration' : Registration}

/-- What is known of the lexemes of numbers. -/
theorem number (proper : found.Proper quote) (registers : found.registration = some registration)
    (is : found.token.kind = .integerLiteral ∨ found.token.kind = .realLiteral) :
    (∃ c rest, found.token.lexeme = c :: rest ∧ isDigit c = true) ∧
      (∀ c ∈ found.token.lexeme, isNumeral c) ∧ ∃ value, registration = ⟨.constant, value⟩ ∧
        value.kind ≠ .text ∧ numberValue? found.token.lexeme = some value := by
  cases proper with
  | identifier other | text other =>
    rw [other] at is
    obtain absurd | absurd := is
    · cases absurd
    · cases absurd
  | plain _ _ none =>
    rw [none] at registers
    cases registers
  | @integer n c rest _ here denotes starts digit =>
    rw [here] at registers
    cases registers
    have digits : ∀ d ∈ found.token.lexeme, isDigit d = true := by
      intro d member
      by_contra other
      rw [starts] at member denotes
      rw [readWhole_unsigned digit, readDigits_eq_none member (Bool.not_eq_true _ ▸ other)] at denotes
      cases denotes
    refine ⟨⟨c, rest, starts, digit⟩, fun d member => .inl (digits d member), .int n, rfl, nofun, ?_⟩
    rw [numberValue?, denotes]
    rfl
  | @real x c rest _ here starts digit _ denotes marked plain =>
    rw [here] at registers
    cases registers
    refine ⟨⟨c, rest, starts, digit⟩, plain, .real x, rfl, nofun, ?_⟩
    obtain ⟨d, member, mark⟩ := marked
    have none : readWhole? found.token.lexeme = none := by
      rw [starts] at member ⊢
      rw [readWhole_unsigned digit, readDigits_eq_none member (Scan.not_digit_of_mark mark)]
      rfl
    rw [numberValue?, denotes, none]
    rfl

/-- Numbers with the same name register the same value. -/
theorem same_number (proper : found.Proper quote) (proper' : other.Proper quote)
    (registers : found.registration = some registration)
    (registers' : other.registration = some registration')
    (is : found.token.kind = .integerLiteral ∨ found.token.kind = .realLiteral)
    (is' : other.token.kind = .integerLiteral ∨ other.token.kind = .realLiteral)
    (same : found.token.text.SameName other.token.text) : registration = registration' := by
  obtain ⟨⟨c, rest, starts, digit⟩, plain, value, rfl, _, denotes⟩ := proper.number registers is
  obtain ⟨⟨c', rest', starts', digit'⟩, plain', value', rfl, _, denotes'⟩ :=
    proper'.number registers' is'
  unfold Text.SameName at same
  rw [Token.text, Token.text, Text.fold_ofChars, Text.fold_ofChars, starts, starts'] at same
  rw [starts] at plain denotes
  rw [starts'] at plain' denotes'
  rw [← numberValue_upperCase digit plain, same, numberValue_upperCase digit' plain', denotes'] at denotes
  rw [Option.some.inj denotes]

end Lexeme.Proper

end MiniPascal
