import MiniPascal.Token.Scan
import Mathlib.Data.List.Infix
import Mathlib.Tactic.Common

/-! # The token grammar

A program text, with an end after every line, is a sequence of gaps and tokens, and perhaps a comment
that is never closed. A gap is any mixture of white space and comments. Where no gap goes on, a token
starts, and it is the longest row of characters in one of the classes of tokens; of classes that match
the same row, the first one counts. A text can be divided in this way in at most one way.
-/

namespace MiniPascal

/-! ## Gaps -/

/-- A comment of either form: it goes on to the first closing after its opening. -/
inductive IsComment : List Char → Prop
  | braces {inner : List Char} (inside : '\x7d' ∉ inner) : IsComment ('\x7b' :: inner ++ ['\x7d'])
  | stars {inner : List Char} (inside : ¬ ['*', ')'] <:+: inner) :
      IsComment ('(' :: '*' :: inner ++ ['*', ')'])

/-- A comment that is never closed. -/
inductive IsOpenComment : List Char → Prop
  | braces {inner : List Char} (inside : '\x7d' ∉ inner) : IsOpenComment ('\x7b' :: inner)
  | stars {inner : List Char} (inside : ¬ ['*', ')'] <:+: inner) : IsOpenComment ('(' :: '*' :: inner)

/-- White space and comments, in any mixture. -/
inductive IsGap : List Char → Prop
  | nil : IsGap []
  | space {c : Char} {rest : List Char} (space : Scan.isSpace c = true) (more : IsGap rest) :
      IsGap (c :: rest)
  | comment {comment rest : List Char} (is : IsComment comment) (more : IsGap rest) :
      IsGap (comment ++ rest)

/-- A gap goes on here. -/
inductive StartsGap : List Char → Prop
  | space {c : Char} {rest : List Char} (space : Scan.isSpace c = true) : StartsGap (c :: rest)
  | braces {rest : List Char} : StartsGap ('\x7b' :: rest)
  | stars {rest : List Char} : StartsGap ('(' :: '*' :: rest)

/-! ## Classes of tokens -/

namespace Scan.NumberParts

/-- The characters of a number. -/
def written (parts : NumberParts) : List Char :=
  parts.whole ++ parts.fraction.elim [] ('.' :: ·) ++
    parts.exponent.elim [] fun exponent => exponent.1 ++ exponent.2

/-- What is kept of a number. -/
def kept (parts : NumberParts) : NumberParts where
  whole := parts.whole.take lexemeLimits.whole
  fraction := parts.fraction.map (·.take lexemeLimits.fraction)
  exponent := parts.exponent.map fun exponent => (exponent.1, exponent.2.take lexemeLimits.exponent)

end Scan.NumberParts

/-- The mark of an exponent, with its sign, and the digits: the mark is directly followed by a digit or
a sign. -/
inductive IsExponent : List Char × List Char → Prop
  | unsigned {mark : Char} {digits : List Char} (letter : mark = 'E' ∨ mark = 'e')
      (some : digits ≠ []) (all : ∀ d ∈ digits, isDigit d = true) : IsExponent ([mark], digits)
  | signed {mark sign : Char} {digits : List Char} (letter : mark = 'E' ∨ mark = 'e')
      (signs : sign = '+' ∨ sign = '-') (all : ∀ d ∈ digits, isDigit d = true) :
      IsExponent ([mark, sign], digits)

/-- The parts of a number: digits, perhaps a point and digits, perhaps an exponent. -/
structure IsNumber (parts : Scan.NumberParts) : Prop where
  some : parts.whole ≠ []
  whole : ∀ d ∈ parts.whole, isDigit d = true
  fraction : ∀ digits ∈ parts.fraction, ∀ d ∈ digits, isDigit d = true
  exponent : ∀ exponent ∈ parts.exponent, IsExponent exponent

/-- The kind of a word or an operator that is in the table, in any case. -/
def tableKind? (lexeme : List Char) : Option TokenKind :=
  (TokenKind.reservedRows.find? fun row => (Text.ofString row.1).SameName (.ofChars lexeme)).map
    (·.2.2.1)

/-- The operators of two characters that are in the table. -/
def operatorPairs : List (List Char) :=
  (TokenKind.reservedRows.map (·.1.toList)).filter fun row =>
    row.length = 2 && row.all fun c => !Scan.isLetter c

theorem operatorPairs_eq : operatorPairs = [[':', '='], ['>', '='], ['<', '='], ['<', '>']] := by
  decide +kernel

/-- The classes of tokens, in the order in which they count. -/
inductive TokenClass where
  | word
  | number (parts : Scan.NumberParts)
  | text
  /-- A text literal that is not closed on its line. -/
  | openText
  | pair
  | single

namespace TokenClass

/-- The place of a class in the order of classes. -/
def rank : TokenClass → Nat
  | word => 0
  | number _ => 1
  | text => 2
  | openText => 3
  | pair => 4
  | single => 5

/-- The rows of characters in a class. A letter or a digit opens no text, even if it is the quote
character. -/
inductive Matches (quote : Char) : TokenClass → List Char → Prop
  | word {c : Char} {rest : List Char} (letter : Scan.isLetter c = true)
      (all : ∀ d ∈ rest, Scan.isIdentifierChar d = true) : Matches quote word (c :: rest)
  | number {parts : Scan.NumberParts} (is : IsNumber parts) : Matches quote (number parts) parts.written
  | text {inner : List Char} (noLetter : Scan.isLetter quote = false) (noDigit : isDigit quote = false)
      (inside : quote ∉ inner) (line : '\n' ∉ inner) : Matches quote text (quote :: inner ++ [quote])
  | openText {inner : List Char} (noLetter : Scan.isLetter quote = false)
      (noDigit : isDigit quote = false) (inside : quote ∉ inner) (line : '\n' ∉ inner) :
      Matches quote openText (quote :: inner)
  | pair {row : List Char} (member : row ∈ operatorPairs) : Matches quote pair row
  | single (c : Char) : Matches quote single [c]

/-- What the token in a row of a class is: the row is cut to the limits, and what is wrong with it is
complained about. -/
def lexeme : TokenClass → List Char → Lexeme
  | word, row =>
    let kept := row.take lexemeLimits.identifier
    { token := ⟨kept, (tableKind? kept).getD .identifier⟩
      registration := if (tableKind? kept).isSome then none else some ⟨.var, .int 0⟩
      issues := if lexemeLimits.identifier < row.length then [.identifierCut kept] else [] }
  | number parts, _ =>
    let kept := parts.kept.written
    let whole := parts.fraction.isNone && parts.exponent.isNone
    let value := if whole then (readWhole? kept).map Value.int else (readReal? kept).map Value.real
    let before := { parts.kept with exponent := none }.written
    { token := ⟨kept, if value.isNone then .unknown else if whole then .integerLiteral else .realLiteral⟩
      registration := value.map fun value => ⟨.constant, value⟩
      issues :=
        (if lexemeLimits.whole < parts.whole.length then [.wholeCut parts.kept.whole] else []) ++
        (if parts.fraction.any (lexemeLimits.fraction < ·.length) then [.fractionCut before] else []) ++
        (if parts.exponent.any (lexemeLimits.exponent < ·.2.length) then [.exponentCut kept] else []) ++
        if value.isNone then [.malformedNumber kept] else [] }
  | text, row =>
    { token := ⟨row, .textLiteral⟩
      registration := some ⟨.constant, .text (.ofChars row.tail.dropLast)⟩ }
  | openText, row => { token := ⟨row, .unknown⟩, issues := [.openText row] }
  | pair, row | single, row => { token := ⟨row, (tableKind? row).getD .unknown⟩ }

end TokenClass

/-- The longest match at the front of a text; of the classes that match it, the first one counts. -/
structure Munches (quote : Char) (text row : List Char) (cls : TokenClass) : Prop where
  front : row <+: text
  is : cls.Matches quote row
  longest : ∀ other more, more <+: text → TokenClass.Matches quote other more → more.length ≤ row.length
  first : ∀ other, TokenClass.Matches quote other row → cls.rank ≤ other.rank

/-! ## Texts -/

/-- A token and the gap before it. -/
structure Piece where
  gap : List Char
  row : List Char
  cls : TokenClass

/-- A text as its pieces and the tail after the last token; the flag says whether a comment is open at the
end of the text. -/
inductive Reads (quote : Char) : List Char → List Piece → List Char → Bool → Prop
  | ends {gap : List Char} (skips : IsGap gap) : Reads quote gap [] gap false
  | opens {gap comment : List Char} (skips : IsGap gap) (opens : IsOpenComment comment) :
      Reads quote (gap ++ comment) [] (gap ++ comment) true
  | piece {piece : Piece} {after tail : List Char} {pieces : List Piece} {opened : Bool}
      (skips : IsGap piece.gap) (stops : ¬ StartsGap (piece.row ++ after))
      (munches : Munches quote (piece.row ++ after) piece.row piece.cls)
      (later : Reads quote after pieces tail opened) :
      Reads quote (piece.gap ++ (piece.row ++ after)) (piece :: pieces) tail opened

/-! ## Passing over gaps -/

namespace Scan

theorem skipLine_braces {inner : List Char} (inside : '\x7d' ∉ inner) (rest : List Char) :
    skipLine .braces (inner ++ '\x7d' :: rest) = skipLine .space rest := by
  induction inner with
  | nil => rw [List.nil_append, skipLine, if_pos rfl]
  | cons c inner ih =>
    rw [List.mem_cons, not_or] at inside
    rw [List.cons_append, skipLine, if_neg (Ne.symm inside.1), ih inside.2]

theorem skipLine_open_braces {inner : List Char} (inside : '\x7d' ∉ inner) :
    skipLine .braces inner = (.braces, []) := by
  induction inner with
  | nil => rfl
  | cons c inner ih =>
    rw [List.mem_cons, not_or] at inside
    rw [skipLine, if_neg (Ne.symm inside.1), ih inside.2]

/-- The first character of what stands inside a comment does not close it. -/
theorem not_closing {c : Char} {inner rest : List Char} (inside : ¬ ['*', ')'] <:+: c :: inner)
    (star : inner = [] → ∀ more, rest ≠ ')' :: more) (more : List Char) (first : c = '*')
    (second : inner ++ rest = ')' :: more) : False := by
  cases inner with
  | nil => exact star rfl more second
  | cons next inner =>
    obtain rfl : next = ')' := (List.cons.inj second).1
    subst first
    exact inside (List.infix_append [] ['*', ')'] inner)

theorem skipLine_stars {inner : List Char} (inside : ¬ ['*', ')'] <:+: inner) (rest : List Char) :
    skipLine .stars (inner ++ '*' :: ')' :: rest) = skipLine .space rest := by
  induction inner with
  | nil => rw [List.nil_append, skipLine]
  | cons c inner ih =>
    have later : ¬ ['*', ')'] <:+: inner := fun infixed => inside (List.infix_cons infixed)
    rw [List.cons_append, skipLine, ih later]
    exact not_closing inside fun _ _ same => absurd (List.cons.inj same).1 (by decide)

theorem skipLine_open_stars {inner : List Char} (inside : ¬ ['*', ')'] <:+: inner) :
    skipLine .stars inner = (.stars, []) := by
  induction inner with
  | nil => rfl
  | cons c inner ih =>
    have later : ¬ ['*', ')'] <:+: inner := fun infixed => inside (List.infix_cons infixed)
    rw [skipLine, ih later]
    intro more first second
    rw [← List.append_nil inner] at second
    exact not_closing inside (fun _ _ => (List.cons_ne_nil _ _).symm) more first second

theorem skipLine_comment {comment : List Char} (is : IsComment comment) (rest : List Char) :
    skipLine .space (comment ++ rest) = skipLine .space rest := by
  cases is with
  | braces inside =>
    simp only [List.cons_append, List.append_assoc, List.nil_append]
    rw [skipLine, if_neg (by decide), if_pos rfl, skipLine_braces inside]
    exact fun _ other => absurd other (by decide)
  | stars inside =>
    simp only [List.cons_append, List.append_assoc, List.nil_append]
    rw [skipLine, skipLine_stars inside]

theorem skipLine_gap {gap : List Char} (skips : IsGap gap) (rest : List Char) :
    skipLine .space (gap ++ rest) = skipLine .space rest := by
  induction skips with
  | nil => rfl
  | @space c gap space _ ih =>
    rw [List.cons_append, skipLine, if_pos space, ih]
    rintro _ rfl
    exact absurd space (by decide)
  | comment is _ ih => rw [List.append_assoc, skipLine_comment is, ih]

/-- Where no gap goes on, nothing is passed over. -/
theorem skipLine_of_stops {rest : List Char} (stops : ¬ StartsGap rest) :
    skipLine .space rest = (.space, rest) := by
  cases rest with
  | nil => rfl
  | cons c rest =>
    have visible : ¬ isSpace c = true := fun space => stops (.space space)
    have other : c ≠ '\x7b' := by
      rintro rfl
      exact stops .braces
    rw [skipLine, if_neg visible, if_neg other]
    rintro more rfl rfl
    exact stops .stars

theorem skipLine_open {comment : List Char} (opens : IsOpenComment comment) :
    ∃ gap, gap ≠ .space ∧ skipLine .space comment = (gap, []) := by
  cases opens with
  | braces inside =>
    refine ⟨.braces, nofun, ?_⟩
    rw [skipLine, if_neg (by decide), if_pos rfl, skipLine_open_braces inside]
    exact fun _ other => absurd other (by decide)
  | stars inside =>
    refine ⟨.stars, nofun, ?_⟩
    rw [skipLine, skipLine_open_stars inside]

/-! ## Numbers -/

/-- What follows a number without going on with it. -/
def EndsNumber (rest : List Char) : Prop :=
  ∀ c ∈ rest.head?, isDigit c = false ∧ c ≠ '.' ∧ c ≠ 'E' ∧ c ≠ 'e'

theorem takeWhile_digits {digits : List Char} (all : ∀ d ∈ digits, isDigit d = true)
    (rest : List Char) : (digits ++ rest).takeWhile isDigit = digits ++ rest.takeWhile isDigit ∧
      (digits ++ rest).dropWhile isDigit = rest.dropWhile isDigit :=
  ⟨List.takeWhile_append_of_pos all, List.dropWhile_append_of_pos all⟩

theorem takeExponent_written {exponent : List Char × List Char} (is : IsExponent exponent)
    (rest : List Char) : takeExponent (exponent.1 ++ exponent.2 ++ rest) =
      (some (exponent.1, exponent.2 ++ rest.takeWhile isDigit), rest.dropWhile isDigit) := by
  cases is with
  | @unsigned mark digits letter some all =>
    obtain ⟨d, digits, rfl⟩ := List.exists_cons_of_ne_nil some
    have digit := all d List.mem_cons_self
    have noSign : ¬ (d = '+' ∨ d = '-') := by
      rintro (rfl | rfl) <;> exact absurd digit (by decide)
    obtain ⟨taken, dropped⟩ := takeWhile_digits all rest
    change takeExponent (mark :: d :: (digits ++ rest)) = _
    rw [takeExponent, if_pos letter, if_neg noSign, if_pos digit, ← List.cons_append, taken, dropped]
  | @signed mark sign digits letter signs all =>
    obtain ⟨taken, dropped⟩ := takeWhile_digits all rest
    change takeExponent (mark :: sign :: (digits ++ rest)) = _
    rw [takeExponent, if_pos letter, if_pos signs, taken, dropped]

theorem takeExponent_of_ends {rest : List Char} (ends : EndsNumber rest) :
    takeExponent rest = (none, rest) := by
  unfold takeExponent
  split
  · rename_i mark next rest
    obtain ⟨_, _, big, small⟩ := ends mark rfl
    rw [if_neg (by simp [big, small])]
  · rfl

theorem takeFraction_of_ne {rest : List Char} (other : ∀ c ∈ rest.head?, c ≠ '.') :
    takeFraction rest = (none, rest) := by
  unfold takeFraction
  split
  · exact absurd rfl (other '.' rfl)
  · rfl

/-- No digit stands at the front. -/
def NoDigit (row : List Char) : Prop := ∀ c ∈ row.head?, isDigit c = false

theorem NoDigit.taken {row : List Char} (none : NoDigit row) :
    row.takeWhile isDigit = [] ∧ row.dropWhile isDigit = row := by
  cases row with
  | nil => exact ⟨rfl, rfl⟩
  | cons c row =>
    have other : ¬ isDigit c = true := by simp [none c rfl]
    exact ⟨List.takeWhile_cons_of_neg other, List.dropWhile_cons_of_neg other⟩

theorem takeFraction_written {digits : List Char} (all : ∀ d ∈ digits, isDigit d = true)
    (rest : List Char) : takeFraction ('.' :: (digits ++ rest)) =
      (some (digits ++ rest.takeWhile isDigit), rest.dropWhile isDigit) := by
  obtain ⟨taken, dropped⟩ := takeWhile_digits all rest
  rw [takeFraction, taken, dropped]

theorem exponent_head {exponent : List Char × List Char} (is : IsExponent exponent) (rest : List Char) :
    ∀ c ∈ (exponent.1 ++ exponent.2 ++ rest).head?, isDigit c = false ∧ c ≠ '.' := by
  have marked {mark : Char} (letter : mark = 'E' ∨ mark = 'e') : isDigit mark = false ∧ mark ≠ '.' := by
    obtain rfl | rfl := letter <;> exact ⟨by decide, by decide⟩
  cases is with
  | unsigned letter | signed letter =>
    rintro c ⟨⟩
    exact marked letter

/-- How a number is taken from the front of a text. -/
theorem takeNumber_append {whole : List Char} (all : ∀ d ∈ whole, isDigit d = true) (row : List Char) :
    takeNumber (whole ++ row) =
      (⟨whole ++ row.takeWhile isDigit, (takeFraction (row.dropWhile isDigit)).1,
        (takeExponent (takeFraction (row.dropWhile isDigit)).2).1⟩,
        (takeExponent (takeFraction (row.dropWhile isDigit)).2).2) := by
  obtain ⟨taken, dropped⟩ := takeWhile_digits all row
  unfold takeNumber
  rw [taken, dropped]

/-- A longer number is taken if there is one. -/
theorem takeNumber_written {parts : NumberParts} (is : IsNumber parts) (rest : List Char) :
    parts.written.length ≤ (takeNumber (parts.written ++ rest)).1.written.length ∧
      (EndsNumber rest → takeNumber (parts.written ++ rest) = (parts, rest)) := by
  obtain ⟨whole, fraction, exponent⟩ := parts
  obtain ⟨_, digits, afterPoint, marked⟩ := is
  have last (ends : EndsNumber rest) := NoDigit.taken fun c here => (ends c here).1
  have point (row : List Char) : NoDigit ('.' :: row) := by
    rintro c ⟨⟩
    decide
  cases exponent with
  | none =>
    cases fraction with
    | none =>
      have same : NumberParts.written ⟨whole, none, none⟩ = whole := by simp [NumberParts.written]
      rw [same, takeNumber_append digits]
      refine ⟨by simp [NumberParts.written], fun ends => ?_⟩
      rw [(last ends).1, (last ends).2, takeFraction_of_ne fun c here => (ends c here).2.1,
        takeExponent_of_ends ends, List.append_nil]
    | some fraction =>
      have same : NumberParts.written ⟨whole, some fraction, none⟩ ++ rest =
          whole ++ '.' :: (fraction ++ rest) := by simp [NumberParts.written]
      rw [same, takeNumber_append digits, (point _).taken.1, (point _).taken.2,
        takeFraction_written (afterPoint fraction rfl)]
      refine ⟨by simp [NumberParts.written], fun ends => ?_⟩
      rw [(last ends).1, (last ends).2, takeExponent_of_ends ends, List.append_nil, List.append_nil]
  | some exponent =>
    have mark := marked exponent rfl
    have ahead := exponent_head mark rest
    have free := NoDigit.taken fun c here => (ahead c here).1
    cases fraction with
    | none =>
      have same : NumberParts.written ⟨whole, none, some exponent⟩ ++ rest =
          whole ++ (exponent.1 ++ exponent.2 ++ rest) := by simp [NumberParts.written]
      rw [same, takeNumber_append digits, free.1, free.2,
        takeFraction_of_ne fun c here => (ahead c here).2, takeExponent_written mark]
      refine ⟨by simp [NumberParts.written], fun ends => ?_⟩
      rw [(last ends).1, (last ends).2, List.append_nil, List.append_nil]
    | some fraction =>
      have same : NumberParts.written ⟨whole, some fraction, some exponent⟩ ++ rest =
          whole ++ '.' :: (fraction ++ (exponent.1 ++ exponent.2 ++ rest)) := by
        simp [NumberParts.written]
      rw [same, takeNumber_append digits, (point _).taken.1, (point _).taken.2,
        takeFraction_written (afterPoint fraction rfl), free.1, free.2, takeExponent_written mark]
      refine ⟨by simp [NumberParts.written], fun ends => ?_⟩
      rw [(last ends).1, (last ends).2, List.append_nil, List.append_nil, List.append_nil]

theorem takeExponent_spec (row : List Char) : (∀ exponent ∈ (takeExponent row).1, IsExponent exponent) ∧
    (takeExponent row).1.elim [] (fun exponent => exponent.1 ++ exponent.2) ++ (takeExponent row).2 =
      row := by
  fun_cases takeExponent row with
  | case1 mark next rest letter signs =>
    refine ⟨?_, by simp⟩
    rintro _ ⟨⟩
    exact .signed letter signs (List.all_eq_true.mp List.all_takeWhile)
  | case2 mark next rest letter _ digit =>
    refine ⟨?_, by simp⟩
    rintro _ ⟨⟩
    refine .unsigned letter ?_ (List.all_eq_true.mp List.all_takeWhile)
    rw [List.takeWhile_cons_of_pos digit]
    exact List.cons_ne_nil _ _
  | case3 | case4 | case5 => exact ⟨nofun, rfl⟩

theorem takeFraction_spec (row : List Char) :
    (∀ digits ∈ (takeFraction row).1, ∀ d ∈ digits, isDigit d = true) ∧
      (takeFraction row).1.elim [] ('.' :: ·) ++ (takeFraction row).2 = row := by
  fun_cases takeFraction row with
  | case1 rest =>
    refine ⟨?_, by simp⟩
    rintro _ ⟨⟩
    exact List.all_eq_true.mp List.all_takeWhile
  | case2 => exact ⟨nofun, rfl⟩

/-- What is taken is a number, and nothing is lost. -/
theorem takeNumber_spec {c : Char} (digit : isDigit c = true) (row : List Char) :
    IsNumber (takeNumber (c :: row)).1 ∧
      (takeNumber (c :: row)).1.written ++ (takeNumber (c :: row)).2 = c :: row := by
  obtain ⟨fraction, afterWhole⟩ := takeFraction_spec ((c :: row).dropWhile isDigit)
  obtain ⟨exponent, afterPoint⟩ := takeExponent_spec (takeFraction ((c :: row).dropWhile isDigit)).2
  refine ⟨⟨?_, List.all_eq_true.mp List.all_takeWhile, fraction, exponent⟩, ?_⟩
  · change (c :: row).takeWhile isDigit ≠ []
    rw [List.takeWhile_cons_of_pos digit]
    exact List.cons_ne_nil _ _
  · unfold NumberParts.written takeNumber
    dsimp only
    rw [List.append_assoc, afterPoint, List.append_assoc, afterWhole, List.takeWhile_append_dropWhile]

/-- The characters of a number tell its parts. -/
theorem written_inj {parts other : NumberParts} (is : IsNumber parts) (is' : IsNumber other)
    (same : parts.written = other.written) : parts = other := by
  have none : EndsNumber [] := nofun
  have first := (takeNumber_written is []).2 none
  have second := (takeNumber_written is' []).2 none
  rw [same, second] at first
  exact (congrArg Prod.fst first).symm

end Scan

/-! ## Only one reading -/

theorem TokenClass.Matches.ne_nil {quote : Char} {cls : TokenClass} {row : List Char}
    (is : cls.Matches quote row) : row ≠ [] := by
  cases is with
  | number number =>
    intro none
    unfold Scan.NumberParts.written at none
    exact number.some (List.append_eq_nil_iff.mp (List.append_eq_nil_iff.mp none).1).1
  | pair member =>
    rintro rfl
    rw [operatorPairs_eq] at member
    exact absurd member (by decide)
  | word | text | openText | single => exact List.cons_ne_nil _ _

/-- A row is in one class of each rank. -/
theorem TokenClass.Matches.eq_of_rank {quote : Char} {cls other : TokenClass} {row : List Char}
    (is : cls.Matches quote row) (is' : other.Matches quote row) (same : cls.rank = other.rank) :
    cls = other := by
  cases is with
  | @number parts number =>
    generalize written : parts.written = row at is'
    cases is' with
    | number number' => exact congrArg TokenClass.number (Scan.written_inj number number' written)
    | word | text | openText | pair | single => cases same
  | word | text | openText | pair | single =>
    cases other with
    | number => cases same
    | word | text | openText | pair | single => first | rfl | cases same

theorem Munches.unique {quote : Char} {text row other : List Char} {cls cls' : TokenClass}
    (first : Munches quote text row cls) (second : Munches quote text other cls') :
    row = other ∧ cls = cls' := by
  have length : row.length = other.length :=
    Nat.le_antisymm (second.longest _ _ first.front first.is) (first.longest _ _ second.front second.is)
  have same : row = other :=
    (List.prefix_of_prefix_length_le first.front second.front (Nat.le_of_eq length)).eq_of_length length
  subst same
  exact ⟨rfl, first.is.eq_of_rank second.is
    (Nat.le_antisymm (first.first _ second.is) (second.first _ first.is))⟩

/-- How a reading goes on, by what is left after the gap at its front. -/
inductive Reads.Front (quote : Char) (text : List Char) : List Piece → List Char → Bool → Prop
  | done {gap : Scan.Gap} (skips : Scan.skipLine .space text = (gap, [])) :
      Front quote text [] text (gap ≠ .space)
  | piece {piece : Piece} {after tail : List Char} {pieces : List Piece} {opened : Bool}
      (front : text = piece.gap ++ (piece.row ++ after))
      (skips : Scan.skipLine .space text = (.space, piece.row ++ after))
      (munches : Munches quote (piece.row ++ after) piece.row piece.cls)
      (later : Reads quote after pieces tail opened) : Front quote text (piece :: pieces) tail opened

theorem Reads.front {quote : Char} {text tail : List Char} {pieces : List Piece} {opened : Bool}
    (reads : Reads quote text pieces tail opened) : Front quote text pieces tail opened := by
  cases reads with
  | ends skips =>
    have passed := Scan.skipLine_gap skips []
    rw [List.append_nil] at passed
    exact .done passed
  | @opens gap comment skips opens =>
    obtain ⟨state, other, passed⟩ := Scan.skipLine_open opens
    have done : Front quote (gap ++ comment) [] (gap ++ comment) (state ≠ .space) :=
      .done ((Scan.skipLine_gap skips _).trans passed)
    rwa [decide_eq_true other] at done
  | piece skips stops munches later =>
    exact .piece rfl ((Scan.skipLine_gap skips _).trans (Scan.skipLine_of_stops stops)) munches later

/-- A text is read in one way at most. -/
theorem Reads.unique {quote : Char} {text tail tail' : List Char} {pieces pieces' : List Piece}
    {opened opened' : Bool} (first : Reads quote text pieces tail opened)
    (second : Reads quote text pieces' tail' opened') :
    pieces = pieces' ∧ tail = tail' ∧ opened = opened' := by
  induction pieces generalizing text pieces' with
  | nil =>
    cases first.front with
    | done skips =>
      cases second.front with
      | done skips' =>
        rw [skips] at skips'
        cases skips'
        exact ⟨rfl, rfl, rfl⟩
      | piece _ skips' munches =>
        rw [skips] at skips'
        exact absurd (List.append_eq_nil_iff.mp (congrArg Prod.snd skips').symm).1 munches.is.ne_nil
  | cons piece pieces ih =>
    cases first.front with
    | @piece _ after _ _ _ front skips munches later =>
      cases second.front with
      | done skips' =>
        rw [skips] at skips'
        exact absurd (List.append_eq_nil_iff.mp (congrArg Prod.snd skips')).1 munches.is.ne_nil
      | @piece other after' _ _ _ front' skips' munches' later' =>
        rw [skips] at skips'
        have rest : piece.row ++ after = other.row ++ after' := congrArg Prod.snd skips'
        rw [front, rest] at front'
        have gap : piece.gap = other.gap := List.append_cancel_right front'
        rw [← rest] at munches'
        obtain ⟨row, cls⟩ := munches.unique munches'
        rw [row] at rest
        have same : after = after' := List.append_cancel_left rest
        obtain ⟨rfl, rfl, rfl⟩ := ih later (same ▸ later')
        obtain ⟨_, _, _⟩ := piece
        obtain ⟨_, _, _⟩ := other
        cases gap
        cases row
        cases cls
        exact ⟨rfl, rfl, rfl⟩

end MiniPascal
