import MiniPascal.Proofs.Lexemes
import MiniPascal.Proofs.Lexing.ReservedWords
import MiniPascal.Proofs.Lines

/-! # The scanner takes the longest match

Passing over a gap line by line is passing over a gap of the text, and the token that is taken then from
its line is the longest match in the text, with the lexeme and the complaints of its class.
-/

namespace MiniPascal

open Scan

/-! ## Gaps -/

/-- What is left of a text after the gap at its front, and whether a comment is open then. -/
inductive Skipped (text : List Char) : Gap × List Char → Prop
  | gap {gap rest : List Char} (front : text = gap ++ rest) (skips : IsGap gap)
      (stops : ¬ StartsGap rest) : Skipped text (.space, rest)
  | opens {gap comment : List Char} {state : Gap} (front : text = gap ++ comment) (skips : IsGap gap)
      (opens : IsOpenComment comment) (inside : state ≠ .space) : Skipped text (state, [])

namespace Skipped

variable {text rest : List Char} {result : Gap × List Char}

theorem space {c : Char} (space : isSpace c = true) (skipped : Skipped rest result) :
    Skipped (c :: rest) result := by
  cases skipped with
  | gap front skips stops => exact .gap (congrArg (c :: ·) front) (.space space skips) stops
  | opens front skips opens inside =>
    exact .opens (congrArg (c :: ·) front) (.space space skips) opens inside

theorem comment {comment : List Char} (is : IsComment comment) (skipped : Skipped rest result) :
    Skipped (comment ++ rest) result := by
  cases skipped with
  | gap front skips stops =>
    refine .gap ?_ (.comment is skips) stops
    rw [front, List.append_assoc]
  | opens front skips opens inside =>
    refine .opens ?_ (.comment is skips) opens inside
    rw [front, List.append_assoc]

end Skipped

/-- What is left of a text after the rest of the gap that it starts in. -/
def SkippedFrom : Gap → List Char → Gap × List Char → Prop
  | .space, text, result => Skipped text result
  | .braces, text, result =>
    (∃ inner rest, text = inner ++ '\x7d' :: rest ∧ '\x7d' ∉ inner ∧ Skipped rest result) ∨
      '\x7d' ∉ text ∧ result = (.braces, [])
  | .stars, text, result =>
    (∃ inner rest, text = inner ++ '*' :: ')' :: rest ∧ ¬ ['*', ')'] <:+: inner ∧ Skipped rest result) ∨
      ¬ ['*', ')'] <:+: text ∧ result = (.stars, [])

theorem closing_of_cons {c : Char} {text : List Char}
    (other : ∀ rest, c = '*' → text = ')' :: rest → False) (closes : ['*', ')'] <:+: c :: text) :
    ['*', ')'] <:+: text := by
  obtain ⟨rest, same⟩ | later := List.infix_cons_iff.mp closes
  · have parts := List.cons.inj same
    exact (other rest parts.1.symm parts.2.symm).elim
  · exact later

theorem skipLine_skips (state : Gap) (text : List Char) :
    SkippedFrom state text (skipLine state text) := by
  fun_induction skipLine state text with
  | case1 state =>
    cases state with
    | space =>
      refine .gap rfl .nil fun starts => ?_
      cases starts
    | braces => exact .inr ⟨List.not_mem_nil, rfl⟩
    | stars => exact .inr ⟨by decide, rfl⟩
  | case2 rest ih =>
    obtain ⟨inner, more, rfl, inside, skipped⟩ | ⟨inside, same⟩ := ih
    · have skipped := skipped.comment (.stars inside)
      rw [List.append_assoc] at skipped
      exact skipped
    · rw [same]
      exact .opens rfl .nil (.stars inside) (by decide)
  | case3 c rest _ space ih => exact ih.space space
  | case4 rest _ _ ih =>
    obtain ⟨inner, more, rfl, inside, skipped⟩ | ⟨inside, same⟩ := ih
    · have skipped := skipped.comment (.braces inside)
      rw [List.append_assoc] at skipped
      exact skipped
    · rw [same]
      exact .opens rfl .nil (.braces inside) (by decide)
  | case5 c rest other visible noBrace =>
    refine .gap rfl .nil fun starts => ?_
    cases starts with
    | space space => exact visible space
    | braces => exact noBrace rfl
    | stars => exact other _ rfl rfl
  | case6 rest ih => exact .inl ⟨[], rest, rfl, List.not_mem_nil, ih⟩
  | case7 c rest other ih =>
    obtain ⟨inner, more, rfl, inside, skipped⟩ | ⟨inside, same⟩ := ih
    · exact .inl ⟨c :: inner, more, rfl, by simp [inside, Ne.symm other], skipped⟩
    · exact .inr ⟨by simp [inside, Ne.symm other], same⟩
  | case8 rest ih => exact .inl ⟨[], rest, rfl, by decide, ih⟩
  | case9 c rest other ih =>
    obtain ⟨inner, more, rfl, inside, skipped⟩ | ⟨inside, same⟩ := ih
    · refine .inl ⟨c :: inner, more, rfl, fun closes => inside ?_, skipped⟩
      refine closing_of_cons (fun rest first second => ?_) closes
      subst second
      exact other _ first rfl
    · exact .inr ⟨fun closes => inside (closing_of_cons other closes), same⟩

/-- An opening or a closing of two characters does not go over the end of a line. -/
theorem not_across {c first second : Char} {row : List Char}
    (other : ∀ rest, c = first → row = second :: rest → False) (visible : second ≠ '\n')
    (below rest : List Char) (is : c = first) (same : row ++ '\n' :: below = second :: rest) : False := by
  cases row with
  | nil => exact visible (List.cons.inj same).1.symm
  | cons d row => exact other row is (by rw [(List.cons.inj same).1])

/-- A gap is passed over line by line. -/
theorem skipLine_newline (state : Gap) (row below : List Char) :
    skipLine state (row ++ '\n' :: below) =
      if (skipLine state row).2 = [] then skipLine (skipLine state row).1 below
      else ((skipLine state row).1, (skipLine state row).2 ++ '\n' :: below) := by
  fun_induction skipLine state row with
  | case1 state =>
    rw [if_pos rfl, List.nil_append]
    cases state with
    | space =>
      rw [skipLine, if_pos (by decide)]
      exact fun _ other => absurd other (by decide)
    | braces => rw [skipLine, if_neg (by decide)]
    | stars =>
      rw [skipLine]
      exact fun _ other => absurd other (by decide)
  | case2 rest ih => rw [List.cons_append, List.cons_append, skipLine, ih]
  | case3 c rest other space ih =>
    rw [List.cons_append, skipLine, if_pos space, ih]
    exact not_across other (by decide) below
  | case4 rest other visible ih =>
    rw [List.cons_append, skipLine, if_neg visible, if_pos rfl, ih]
    exact not_across other (by decide) below
  | case5 c rest other visible noBrace =>
    rw [List.cons_append, skipLine, if_neg visible, if_neg noBrace, if_neg (List.cons_ne_nil _ _)]
    exact not_across other (by decide) below
  | case6 rest ih => rw [List.cons_append, skipLine, if_pos rfl, ih]
  | case7 c rest other ih => rw [List.cons_append, skipLine, if_neg other, ih]
  | case8 rest ih => rw [List.cons_append, List.cons_append, skipLine, ih]
  | case9 c rest other ih =>
    rw [List.cons_append, skipLine, ih]
    exact not_across other (by decide) below

/-- The complaint in a note, if it is one. -/
def ScanNote.issue? : ScanNote → Option Diagnostic
  | issue diagnostic => some diagnostic
  | line .. => none

namespace Scan

theorem skipLine_suffix (state : Gap) (row : List Char) : (skipLine state row).2 <:+ row := by
  fun_induction skipLine state row with
  | case1 => exact List.suffix_rfl
  | case5 => exact List.suffix_rfl
  | case2 _ ih | case8 _ ih => exact ih.trans ((List.suffix_cons _ _).trans (List.suffix_cons _ _))
  | case3 _ _ _ _ ih | case4 _ _ _ ih | case6 _ ih | case7 _ _ _ ih | case9 _ _ _ ih =>
    exact ih.trans (List.suffix_cons _ _)

/-- The text from a place on. -/
def Place.text (place : Place) : List Char := place.here ++ '\n' :: joinLines place.below

/-- No line has a line end in it. -/
def Place.Plain (place : Place) : Prop := ∀ line ∈ place.here :: place.below, '\n' ∉ line

/-- How a gap is passed over from a place on. -/
structure Passes (state : Gap) (place : Place) (result : List ScanNote × Gap × Place) : Prop where
  notes : result.1.filterMap ScanNote.issue? = []
  lines : result.2.2.number + result.2.2.below.length = place.number + place.below.length
  plain : place.Plain → result.2.2.Plain
  done : result.2.2.here = [] → result.2.2.below = [] ∧ skipLine state place.text = (result.2.1, [])
  found : result.2.2.here ≠ [] → skipLine state place.text = (result.2.1, result.2.2.text)

/-- What is left of a line that has no line end in it. -/
theorem Place.Plain.left {place : Place} (plain : place.Plain) {state state' : Gap} {rest : List Char}
    (left : skipLine state place.here = (state', rest)) (number : Nat) :
    Place.Plain ⟨rest, number, place.below⟩ := by
  have suffix := skipLine_suffix state place.here
  rw [left] at suffix
  intro line member
  obtain rfl | member := List.mem_cons.mp member
  · exact fun newline => plain place.here List.mem_cons_self (suffix.mem newline)
  · exact plain line (List.mem_cons_of_mem _ member)

theorem skipGap_passes (state : Gap) (here : List Char) (number : Nat) (below : List (List Char)) :
    Passes state ⟨here, number, below⟩ (skipGap state here number below) := by
  induction below generalizing state here number with
  | nil =>
    have flat := skipLine_newline state here []
    rcases left : skipLine state here with ⟨state', rest⟩
    rw [left] at flat
    unfold skipGap
    rw [left]
    refine ⟨rfl, rfl, fun plain => plain.left left number, fun none => ⟨rfl, ?_⟩, fun some => ?_⟩
    · exact flat.trans (if_pos none)
    · exact flat.trans (if_neg some)
  | cons next below ih =>
    have flat := skipLine_newline state here (joinLines (next :: below))
    rcases left : skipLine state here with ⟨state', rest⟩
    rw [left] at flat
    unfold skipGap
    rw [left]
    cases rest with
    | nil =>
      obtain ⟨notes, lines, plain, done, found⟩ := ih state' next (number + 1)
      have text : skipLine state (Place.text ⟨here, number, next :: below⟩) =
          skipLine state' (Place.text ⟨next, number + 1, below⟩) := by
        refine flat.trans ((if_pos rfl).trans ?_)
        simp [Place.text, joinLines]
      refine ⟨notes, ?_, fun clean => ?_, fun none => ?_, fun some => ?_⟩
      · refine lines.trans ?_
        change number + 1 + below.length = number + (below.length + 1)
        omega
      · exact plain fun line member => clean line (List.mem_cons_of_mem _ member)
      · rw [text]
        exact done none
      · rw [text]
        exact found some
    | cons c rest =>
      exact ⟨rfl, rfl, fun plain => plain.left left number,
        fun none => absurd none (List.cons_ne_nil _ _), fun some => flat.trans (if_neg some)⟩

/-! ## Lexemes -/

theorem cutTo_eq (limit : Nat) (row : List Char) (complain : List Char → Diagnostic) :
    cutTo limit row complain =
      (row.take limit, if limit < row.length then [complain (row.take limit)] else []) := by
  unfold cutTo
  by_cases short : row.length ≤ limit
  · rw [if_pos short, if_neg (Nat.not_lt.mpr short), List.take_of_length_le short]
  · rw [if_neg short, if_pos (Nat.not_le.mp short)]

theorem word_eq (row : List Char) : word row = TokenClass.word.lexeme row := by
  unfold word TokenClass.lexeme
  rw [cutTo_eq]
  simp only [reserved_lookup]
  cases tableKind? (row.take lexemeLimits.identifier) <;> rfl

theorem cut_eq (parts : NumberParts) : parts.cut = (parts.kept.written,
    (if lexemeLimits.whole < parts.whole.length then [.wholeCut parts.kept.whole] else []) ++
    (if parts.fraction.any (lexemeLimits.fraction < ·.length) then
      [.fractionCut { parts.kept with exponent := none }.written] else []) ++
    if parts.exponent.any (lexemeLimits.exponent < ·.2.length) then [.exponentCut parts.kept.written]
      else []) := by
  obtain ⟨whole, fraction, exponent⟩ := parts
  unfold NumberParts.cut
  simp only [cutTo_eq]
  cases fraction <;> cases exponent <;>
    simp [NumberParts.kept, NumberParts.written]

theorem number_eq (parts : NumberParts) (row : List Char) :
    number parts = (TokenClass.number parts).lexeme row := by
  unfold number TokenClass.lexeme
  rw [cut_eq]
  dsimp only
  cases whole : parts.fraction.isNone && parts.exponent.isNone with
  | true => cases readWhole? parts.kept.written <;> simp
  | false => cases readReal? parts.kept.written <;> simp

end Scan

/-! ## Matches -/

theorem IsNumber.numerals {parts : NumberParts} (is : IsNumber parts) :
    ∀ d ∈ parts.written, isNumeral d := by
  obtain ⟨whole, fraction, exponent⟩ := parts
  obtain ⟨_, digits, afterPoint, marked⟩ := is
  intro d member
  simp only [NumberParts.written, List.mem_append] at member
  obtain (member | member) | member := member
  · exact .inl (digits d member)
  · cases fraction with
    | none => exact absurd member List.not_mem_nil
    | some fraction =>
      obtain rfl | member := List.mem_cons.mp member
      · exact .inr (.inl rfl)
      · exact .inl (afterPoint fraction rfl d member)
  · cases exponent with
    | none => exact absurd member List.not_mem_nil
    | some exponent =>
      have letters {mark : Char} (letter : mark = 'E' ∨ mark = 'e') : isNumeral mark :=
        .inr (letter.elim (fun big => .inr (.inr (.inl big))) fun small => .inr (.inl small))
      cases marked exponent rfl with
      | unsigned letter _ all =>
        obtain rfl | member := List.mem_cons.mp member
        · exact letters letter
        · exact .inl (all d member)
      | signed letter signs all =>
        obtain rfl | member := List.mem_cons.mp member
        · exact letters letter
        · obtain rfl | member := List.mem_cons.mp member
          · exact .inr (.inr (.inr (.inr signs)))
          · exact .inl (all d member)

namespace TokenClass

/-- What the first character of a match is. -/
def StartsWith (quote c : Char) : TokenClass → Prop
  | word => isLetter c = true
  | number _ => isDigit c = true
  | text | openText => c = quote ∧ isLetter c = false ∧ isDigit c = false
  | pair => startsPair c = true
  | single => True

theorem Matches.starts {quote c : Char} {rest row : List Char} {cls : TokenClass}
    (is : cls.Matches quote row) (front : row = c :: rest) : cls.StartsWith quote c := by
  cases is with
  | word letter =>
    obtain ⟨rfl, _⟩ := List.cons.inj front
    exact letter
  | @number parts number =>
    obtain ⟨d, digits, whole⟩ := List.exists_cons_of_ne_nil number.some
    unfold NumberParts.written at front
    rw [whole] at front
    obtain ⟨rfl, _⟩ := List.cons.inj front
    exact number.whole d (by simp [whole])
  | text noLetter noDigit | openText noLetter noDigit =>
    obtain ⟨rfl, _⟩ := List.cons.inj front
    exact ⟨rfl, noLetter, noDigit⟩
  | pair member =>
    have all : ∀ row ∈ operatorPairs, row.head?.all startsPair = true := by
      rw [operatorPairs_eq]
      decide
    subst front
    exact all _ member
  | single => exact trivial

/-- The rank of the first class that a token with this first character can be in. -/
def leastRank (quote c : Char) : Nat :=
  if isLetter c then 0 else if isDigit c then 1 else if c = quote then 2 else 4

theorem Matches.rank_ge {quote c : Char} {rest : List Char} {cls : TokenClass} {rank : Nat}
    (is : cls.Matches quote (c :: rest)) (least : leastRank quote c = rank) : rank ≤ cls.rank := by
  have starts := is.starts rfl
  subst least
  unfold leastRank
  split_ifs with letter digit quoted
  · exact Nat.zero_le _
  all_goals
    cases cls with
    | word => exact absurd starts letter
    | number => first | exact Nat.le_refl 1 | exact absurd starts digit
    | text | openText => first | exact absurd starts.1 quoted | decide
    | pair | single => decide

theorem leastRank_quote {quote : Char} (noLetter : isLetter quote = false)
    (noDigit : isDigit quote = false) : leastRank quote quote = 2 := by
  simp [leastRank, noLetter, noDigit]

theorem leastRank_operator {quote c : Char} (noLetter : isLetter c = false)
    (noDigit : isDigit c = false) (noQuote : c ≠ quote) : leastRank quote c = 4 := by
  simp [leastRank, noLetter, noDigit, noQuote]

/-- A number counts before all but words, and it is no word. -/
theorem Matches.rank_pos {quote : Char} {parts : NumberParts} {cls : TokenClass}
    (is : cls.Matches quote parts.written) (number : IsNumber parts) : 1 ≤ cls.rank := by
  have written : (TokenClass.number parts).Matches quote parts.written := .number number
  obtain ⟨c, rest, front⟩ := List.exists_cons_of_ne_nil written.ne_nil
  have digit : isDigit c = true := written.starts front
  rw [front] at is
  exact is.rank_ge (by simp [leastRank, not_letter_of_digit digit, digit])

/-- A token does not span lines. -/
theorem Matches.line {quote : Char} {row : List Char} {cls : TokenClass} (is : cls.Matches quote row)
    (visible : ∀ c ∈ row.head?, c ≠ '\n') : '\n' ∉ row := by
  cases is with
  | @word c rest letter all =>
    intro newline
    obtain rfl | newline := List.mem_cons.mp newline
    · exact visible _ rfl rfl
    · exact absurd (all _ newline) (by decide)
  | number number =>
    intro newline
    exact absurd (number.numerals _ newline) (by simp [isNumeral, isMark]; decide)
  | text _ _ _ line =>
    have other : '\n' ≠ quote := (visible quote rfl).symm
    simp [other, line]
  | openText _ _ _ line =>
    have other : '\n' ≠ quote := (visible quote rfl).symm
    simp [other, line]
  | pair member =>
    have all : ∀ row ∈ operatorPairs, '\n' ∉ row := by
      rw [operatorPairs_eq]
      decide
    exact all row member
  | single c =>
    have other : '\n' ≠ c := (visible c rfl).symm
    simp [other]

end TokenClass

/-- A row without a certain character is in front of that character. -/
theorem prefix_of_not_mem {stop : Char} {more row below : List Char}
    (front : more <+: row ++ stop :: below) (free : stop ∉ more) : more <+: row := by
  induction more generalizing row with
  | nil => exact List.nil_prefix
  | cons d more ih =>
    rw [List.mem_cons, not_or] at free
    cases row with
    | nil => exact absurd (List.cons_prefix_cons.mp front).1.symm free.1
    | cons e row =>
      obtain ⟨rfl, later⟩ := List.cons_prefix_cons.mp front
      exact List.cons_prefix_cons.mpr ⟨rfl, ih later free.2⟩

theorem length_of_mem_operatorPairs {row : List Char} (member : row ∈ operatorPairs) :
    row.length = 2 := by
  have all : ∀ row ∈ operatorPairs, row.length = 2 := by
    rw [operatorPairs_eq]
    decide
  exact all row member

theorem length_le_takeWhile {p : Char → Bool} {row more : List Char} (all : ∀ d ∈ more, p d = true)
    (front : more <+: row) : more.length ≤ (row.takeWhile p).length := by
  obtain ⟨rest, rfl⟩ := front
  rw [List.takeWhile_append_of_pos all, List.length_append]
  exact Nat.le_add_right _ _

theorem not_startsPair {c : Char} (either : isLetter c = true ∨ isDigit c = true) :
    startsPair c = false := by
  cases starts : startsPair c with
  | false => rfl
  | true =>
    simp only [startsPair, Bool.or_eq_true, beq_iff_eq] at starts
    obtain (rfl | rfl) | rfl := starts <;> exact absurd either (by decide)

namespace Munches

variable {quote c : Char} {row below token : List Char} {cls : TokenClass}

/-- The longest match in a line is the longest match in the text. -/
theorem of_line (line : '\n' ∉ c :: row) (front : token <+: c :: row) (is : cls.Matches quote token)
    (longest : ∀ (other : TokenClass) (more : List Char), other.Matches quote (c :: more) →
      more <+: row → more.length + 1 ≤ token.length)
    (first : ∀ other : TokenClass, other.Matches quote token → cls.rank ≤ other.rank) :
    Munches quote (c :: row ++ '\n' :: below) token cls := by
  refine ⟨front.trans (List.prefix_append _ _), is, fun other more ahead is' => ?_, first⟩
  obtain ⟨d, more, rfl⟩ := List.exists_cons_of_ne_nil is'.ne_nil
  obtain ⟨rfl, _⟩ := List.cons_prefix_cons.mp ahead
  rw [List.mem_cons, not_or] at line
  have plain := is'.line fun e here => by
    cases here
    exact line.1 ∘ Eq.symm
  have ahead := prefix_of_not_mem ahead plain
  exact longest other more is' (List.cons_prefix_cons.mp ahead).2

theorem of_letter (line : '\n' ∉ c :: row) (letter : isLetter c = true) :
    Munches quote (c :: row ++ '\n' :: below) (c :: row.takeWhile isIdentifierChar) .word := by
  refine of_line line (List.cons_prefix_cons.mpr ⟨rfl, List.takeWhile_prefix _⟩)
    (.word letter (List.all_eq_true.mp List.all_takeWhile)) ?_ fun other _ => Nat.zero_le _
  intro other more is front
  have starts := is.starts rfl
  generalize whole : c :: more = token at is
  cases is with
  | word _ all =>
    obtain ⟨_, rfl⟩ := List.cons.inj whole
    exact Nat.succ_le_succ (length_le_takeWhile all front)
  | number => rw [not_letter_of_digit starts] at letter; cases letter
  | text | openText => rw [starts.2.1] at letter; cases letter
  | pair =>
    rw [TokenClass.StartsWith, not_startsPair (.inl letter)] at starts
    cases starts
  | single =>
    obtain ⟨_, rfl⟩ := List.cons.inj whole
    exact Nat.le_add_left 1 _

theorem of_digit (line : '\n' ∉ c :: row) (digit : isDigit c = true) :
    Munches quote (c :: row ++ '\n' :: below) (takeNumber (c :: row)).1.written
      (.number (takeNumber (c :: row)).1) := by
  obtain ⟨number, whole⟩ := takeNumber_spec digit row
  have is : (TokenClass.number (takeNumber (c :: row)).1).Matches quote _ := .number number
  refine of_line line ⟨_, whole⟩ is ?_ fun other is' => is'.rank_pos number
  intro other more is' ahead
  have starts := is'.starts rfl
  generalize same : c :: more = token at is'
  cases is' with
  | word => rw [TokenClass.StartsWith, not_letter_of_digit digit] at starts; cases starts
  | @number parts is' =>
    obtain ⟨rest, rfl⟩ := ahead
    have longer := (takeNumber_written is' rest).1
    rw [← same] at longer
    exact longer
  | text | openText => rw [starts.2.2] at digit; cases digit
  | pair =>
    rw [TokenClass.StartsWith, not_startsPair (.inr digit)] at starts
    cases starts
  | single =>
    obtain ⟨_, rfl⟩ := List.cons.inj same
    exact List.length_pos_of_ne_nil is.ne_nil

section Quoted

variable (noLetter : isLetter c = false) (noDigit : isDigit c = false)

include noLetter noDigit

/-- A quote that is closed on its line. -/
theorem of_closed {inner rest : List Char} (line : '\n' ∉ c :: (inner ++ c :: rest))
    (inside : c ∉ inner) :
    Munches c (c :: (inner ++ c :: rest) ++ '\n' :: below) (c :: inner ++ [c]) .text := by
  have plain : '\n' ∉ inner := by
    simp only [List.mem_cons, List.mem_append, not_or] at line
    exact line.2.1
  have least := TokenClass.leastRank_quote noLetter noDigit
  have size : (c :: inner ++ [c]).length = inner.length + 2 := by simp
  refine of_line line ⟨rest, by simp⟩ (.text noLetter noDigit inside plain) ?_
    fun other is => is.rank_ge least
  intro other more is ahead
  rw [size]
  have rank := is.rank_ge least
  generalize same : c :: more = token at is
  cases is with
  | word | number => exact absurd rank (by simp [TokenClass.rank])
  | text _ _ inside' =>
    obtain ⟨_, rfl⟩ := List.cons.inj same
    have shorter := (prefix_of_not_mem ((List.prefix_append _ _).trans ahead) inside').length_le
    simpa using shorter
  | openText _ _ inside' =>
    obtain ⟨_, rfl⟩ := List.cons.inj same
    have shorter := (prefix_of_not_mem ahead inside').length_le
    omega
  | pair member =>
    have two := length_of_mem_operatorPairs (same ▸ member)
    rw [List.length_cons] at two
    omega
  | single =>
    obtain ⟨_, rfl⟩ := List.cons.inj same
    exact Nat.le_add_left _ _

/-- A quote that is not closed on its line. -/
theorem of_unclosed (line : '\n' ∉ c :: row) (inside : c ∉ row) :
    Munches c (c :: row ++ '\n' :: below) (c :: row) .openText := by
  have plain : '\n' ∉ row := fun newline => line (List.mem_cons_of_mem _ newline)
  have least := TokenClass.leastRank_quote noLetter noDigit
  refine of_line line (List.prefix_refl _) (.openText noLetter noDigit inside plain)
    (fun _ _ _ ahead => Nat.succ_le_succ ahead.length_le) fun other is => ?_
  have rank := is.rank_ge least
  generalize same : c :: row = token at is
  cases is with
  | word | number => exact absurd rank (by simp [TokenClass.rank])
  | text =>
    obtain ⟨_, rfl⟩ := List.cons.inj same
    exact absurd (List.mem_append_right _ List.mem_cons_self) inside
  | openText | pair | single => decide

end Quoted

section Operators

variable (noLetter : isLetter c = false) (noDigit : isDigit c = false) (noQuote : c ≠ quote)

include noLetter noDigit noQuote

/-- An operator of two characters. -/
theorem of_pair {d : Char} (line : '\n' ∉ c :: d :: row) (member : [c, d] ∈ operatorPairs) :
    Munches quote (c :: d :: row ++ '\n' :: below) [c, d] .pair := by
  have least := TokenClass.leastRank_operator noLetter noDigit noQuote
  refine of_line line ⟨row, rfl⟩ (.pair member) ?_ fun other is => is.rank_ge least
  intro other more is ahead
  have rank := is.rank_ge least
  generalize same : c :: more = token at is
  cases is with
  | word | number | text | openText => exact absurd rank (by simp [TokenClass.rank])
  | pair member =>
    rw [← same] at member
    exact Nat.le_of_eq (length_of_mem_operatorPairs member)
  | single =>
    obtain ⟨_, rfl⟩ := List.cons.inj same
    exact Nat.le_succ 1

/-- A character that starts nothing longer. -/
theorem of_single (line : '\n' ∉ c :: row)
    (alone : ∀ d ∈ row.head?, [c, d] ∉ operatorPairs) :
    Munches quote (c :: row ++ '\n' :: below) [c] .single := by
  have least := TokenClass.leastRank_operator noLetter noDigit noQuote
  refine of_line line ⟨row, rfl⟩ (.single c) ?_ fun other is => ?_
  · intro other more is ahead
    have rank := is.rank_ge least
    generalize same : c :: more = token at is
    cases is with
    | word | number | text | openText => exact absurd rank (by simp [TokenClass.rank])
    | pair member =>
      rw [← same] at member
      obtain ⟨d, rfl⟩ := List.length_eq_one_iff.mp (Nat.succ.inj (length_of_mem_operatorPairs member))
      obtain ⟨rest, rfl⟩ := ahead
      exact absurd member (alone d rfl)
    | single =>
      obtain ⟨_, rfl⟩ := List.cons.inj same
      exact Nat.le_refl 1
  · have rank := is.rank_ge least
    generalize same : [c] = token at is
    cases is with
    | word | number | text | openText => exact absurd rank (by simp [TokenClass.rank])
    | pair member =>
      rw [← same] at member
      cases length_of_mem_operatorPairs member
    | single => exact Nat.le_refl 5

end Operators

end Munches

namespace Scan

/-- A token as it is found in its line: it is the longest match, and nothing is lost. -/
def Finds (quote : Char) (line below : List Char) (result : Lexeme × List Char) : Prop :=
  ∃ row cls, line = row ++ result.2 ∧ result.1 = cls.lexeme row ∧
    Munches quote (line ++ '\n' :: below) row cls

variable {quote c : Char} {row : List Char}

theorem textLiteral_finds (line : '\n' ∉ c :: row) (noLetter : isLetter c = false)
    (noDigit : isDigit c = false) (below : List Char) :
    Finds c (c :: row) below (textLiteral c row) := by
  have whole : row.takeWhile (· ≠ c) ++ row.dropWhile (· ≠ c) = row :=
    List.takeWhile_append_dropWhile
  have inside : c ∉ row.takeWhile (· ≠ c) := by
    intro member
    have all := List.all_eq_true.mp (List.all_takeWhile (p := (· ≠ c)) (l := row)) c member
    simp at all
  unfold textLiteral
  cases rest : row.dropWhile (· ≠ c) with
  | nil =>
    rw [rest, List.append_nil] at whole
    rw [whole] at inside ⊢
    exact ⟨c :: row, .openText, (List.append_nil _).symm, rfl,
      .of_unclosed noLetter noDigit line inside⟩
  | cons d rest' =>
    have closes : d = c := by
      have head := List.head?_dropWhile_not (· ≠ c) row
      rw [rest] at head
      simpa using head
    subst closes
    rw [rest] at whole
    generalize row.takeWhile (· ≠ d) = inner at whole inside ⊢
    subst whole
    refine ⟨d :: inner ++ [d], .text, by simp, ?_, .of_closed noLetter noDigit line inside⟩
    simp [TokenClass.lexeme]

theorem operator_finds (line : '\n' ∉ c :: row) (noLetter : isLetter c = false)
    (noDigit : isDigit c = false) (noQuote : c ≠ quote) (below : List Char) :
    Finds quote (c :: row) below (operator c row) := by
  unfold operator operatorKind
  simp only [reserved_lookup]
  cases row with
  | nil =>
    exact ⟨[c], .single, rfl, rfl, .of_single noLetter noDigit noQuote line nofun⟩
  | cons d row =>
    dsimp only
    split
    · rename_i both
      exact ⟨[c, d], .pair, rfl, rfl, .of_pair noLetter noDigit noQuote line
        (mem_operatorPairs.mpr (Bool.and_eq_true_iff.mp both))⟩
    · rename_i neither
      refine ⟨[c], .single, rfl, rfl, .of_single noLetter noDigit noQuote line ?_⟩
      rintro _ ⟨⟩ member
      exact neither (Bool.and_eq_true_iff.mpr (mem_operatorPairs.mp member))

/-- The token at a place is the longest match there. -/
theorem lexeme_finds (line : '\n' ∉ c :: row) (below : List Char) :
    Finds quote (c :: row) below (lexeme quote c row) := by
  unfold lexeme
  split_ifs with letter digit quoted
  · refine ⟨c :: row.takeWhile isIdentifierChar, .word, ?_, ?_, .of_letter line letter⟩
    · exact congrArg (c :: ·) List.takeWhile_append_dropWhile.symm
    · rw [word_eq]
  · refine ⟨(takeNumber (c :: row)).1.written, .number (takeNumber (c :: row)).1, ?_, ?_, ?_⟩
    · exact (takeNumber_spec digit row).2.symm
    · exact number_eq _ _
    · exact .of_digit line digit
  · subst quoted
    exact textLiteral_finds line (by simpa using letter) (by simpa using digit) below
  · exact operator_finds line (by simpa using letter) (by simpa using digit) quoted below

end Scan

end MiniPascal
