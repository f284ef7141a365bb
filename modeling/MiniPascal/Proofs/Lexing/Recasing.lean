import MiniPascal.Proofs.Lexing.MaximalMunch
import Mathlib.Data.List.Forall2

/-! # Texts in another case

A text may be written with some of its letters in the other case. No letter opens or closes a gap or a text
literal, and letters that differ in case only are in the same classes of tokens. So both texts are divided
into gaps and tokens at the same places.
-/

namespace MiniPascal

open Scan

/-! ## Rows of characters -/

/-- The same character, or the same letter in another case. -/
def SameLetter (c d : Char) : Prop :=
  c = d ∨ isLetter c = true ∧ isLetter d = true ∧ upperCase c = upperCase d

instance (c d : Char) : Decidable (SameLetter c d) :=
  inferInstanceAs (Decidable (c = d ∨ isLetter c = true ∧ isLetter d = true ∧ upperCase c = upperCase d))

namespace SameLetter

variable {c d : Char}

theorem symm (same : SameLetter c d) : SameLetter d c := by
  rcases same with rfl | ⟨letter, letter', upper⟩
  · exact .inl rfl
  · exact .inr ⟨letter', letter, upper.symm⟩

theorem upper (same : SameLetter c d) : upperCase c = upperCase d := by
  rcases same with rfl | ⟨_, _, upper⟩
  · rfl
  · exact upper

theorem letter (same : SameLetter c d) (letter : isLetter c = true) : isLetter d = true := by
  rcases same with rfl | ⟨_, letter', _⟩
  · exact letter
  · exact letter'

/-- A character that is no letter has no case. -/
theorem eq_of_plain (same : SameLetter c d) (plain : isLetter c = false) : d = c := by
  rcases same with rfl | ⟨letter, _, _⟩
  · rfl
  · rw [plain] at letter
    cases letter

theorem eq_iff {sign : Char} (same : SameLetter c d) (plain : isLetter sign = false) :
    c = sign ↔ d = sign := by
  constructor
  · rintro rfl
    exact same.eq_of_plain plain
  · rintro rfl
    exact same.symm.eq_of_plain plain

theorem identifierChar (same : SameLetter c d) (is : isIdentifierChar c = true) :
    isIdentifierChar d = true := by
  rcases same with rfl | ⟨_, letter, _⟩
  · exact is
  · simp [isIdentifierChar, letter]

theorem mark (same : SameLetter c d) (mark : c = 'E' ∨ c = 'e') : d = 'E' ∨ d = 'e' := by
  have letter : isLetter d = true := same.letter (by rcases mark with rfl | rfl <;> decide)
  refine eq_mark_of_upperCase letter ?_
  rw [← same.upper]
  rcases mark with rfl | rfl <;> decide

end SameLetter

theorem plain_of_space {c : Char} (space : isSpace c = true) : isLetter c = false := by
  simp only [isSpace, Bool.or_eq_true, beq_iff_eq] at space
  obtain ((rfl | rfl) | rfl) | rfl := space <;> decide

/-- Rows of characters that differ in nothing but the case of letters. -/
def Recased (row other : List Char) : Prop := List.Forall₂ SameLetter row other

instance (row other : List Char) : Decidable (Recased row other) :=
  inferInstanceAs (Decidable (List.Forall₂ SameLetter row other))

namespace Recased

variable {row other front rest : List Char} {c : Char}

theorem symm (recased : Recased row other) : Recased other row :=
  List.Forall₂.flip (List.Forall₂.imp (fun _ _ same => same.symm) recased)

theorem append {row' other' : List Char} (recased : Recased row other) (later : Recased row' other') :
    Recased (row ++ row') (other ++ other') :=
  List.rel_append recased later

theorem length_eq (recased : Recased row other) : other.length = row.length :=
  (List.Forall₂.length_eq recased).symm

theorem take (recased : Recased row other) (limit : Nat) : Recased (row.take limit) (other.take limit) :=
  List.forall₂_take limit recased

theorem eq_nil (recased : Recased [] other) : other = [] := List.forall₂_nil_left_iff.mp recased

theorem uncons (recased : Recased (c :: row) other) :
    ∃ d rest, other = d :: rest ∧ SameLetter c d ∧ Recased row rest := by
  cases recased with
  | cons same later => exact ⟨_, _, rfl, same, later⟩

/-- A character that is no letter stands in both rows. -/
theorem uncons_plain (recased : Recased (c :: row) other) (plain : isLetter c = false) :
    ∃ rest, other = c :: rest ∧ Recased row rest := by
  obtain ⟨d, rest, rfl, same, later⟩ := recased.uncons
  obtain rfl := same.eq_of_plain plain
  exact ⟨rest, rfl, later⟩

/-- The parts of a row are found in the other one. -/
theorem split (recased : Recased (front ++ rest) other) :
    ∃ front' rest', other = front' ++ rest' ∧ Recased front front' ∧ Recased rest rest' := by
  induction front generalizing other with
  | nil => exact ⟨[], other, rfl, .nil, recased⟩
  | cons c front ih =>
    obtain ⟨d, _, rfl, same, later⟩ := recased.uncons
    obtain ⟨front', rest', rfl, recased, recased'⟩ := ih later
    exact ⟨d :: front', rest', rfl, .cons same recased, recased'⟩

theorem upper (recased : Recased row other) : row.map upperCase = other.map upperCase := by
  induction recased with
  | nil => rfl
  | cons same _ ih => rw [List.map_cons, List.map_cons, same.upper, ih]

/-- A row without letters has no case. -/
theorem eq_of_plain (recased : Recased row other) (plain : ∀ c ∈ row, isLetter c = false) :
    other = row := by
  induction recased with
  | nil => rfl
  | cons same _ ih =>
    rw [List.forall_mem_cons] at plain
    rw [same.eq_of_plain plain.1, ih plain.2]

theorem eq_of_digits (recased : Recased row other) (digits : ∀ d ∈ row, isDigit d = true) :
    other = row :=
  recased.eq_of_plain fun d member => not_letter_of_digit (digits d member)

theorem mem_of_plain (recased : Recased row other) (plain : isLetter c = false) (member : c ∈ other) :
    c ∈ row := by
  obtain ⟨before, after, rfl⟩ := List.append_of_mem member
  obtain ⟨before', after', rfl, _, recased⟩ := recased.symm.split
  obtain ⟨_, rfl, _⟩ := recased.uncons_plain plain
  exact List.mem_append_right _ List.mem_cons_self

theorem infix_of_plain {pattern : List Char} (recased : Recased row other)
    (plain : ∀ c ∈ pattern, isLetter c = false) (inside : pattern <:+: other) : pattern <:+: row := by
  obtain ⟨before, after, rfl⟩ := inside
  obtain ⟨front, after', rfl, recased, _⟩ := recased.symm.split
  obtain ⟨before', pattern', rfl, _, recased⟩ := recased.split
  rw [recased.eq_of_plain plain]
  exact List.infix_append before' pattern after'

theorem forall_mem {p : Char → Bool} (recased : Recased row other)
    (kept : ∀ {c d}, SameLetter c d → p c = true → p d = true) (all : ∀ c ∈ row, p c = true) :
    ∀ d ∈ other, p d = true := by
  induction recased with
  | nil => exact nofun
  | cons same _ ih =>
    rw [List.forall_mem_cons] at all ⊢
    exact ⟨kept same all.1, ih all.2⟩

end Recased

/-! ## Gaps -/

section Gaps

variable {comment gap text other : List Char}

theorem IsComment.recased (is : IsComment comment) (recased : Recased comment other) : IsComment other := by
  cases is with
  | braces inside =>
    obtain ⟨_, _, rfl, front, last⟩ := recased.split
    obtain rfl := last.eq_of_plain (by simp [isLetter])
    obtain ⟨_, rfl, inner⟩ := front.uncons_plain (by decide)
    exact .braces fun member => inside (inner.mem_of_plain (by decide) member)
  | stars inside =>
    obtain ⟨_, _, rfl, front, last⟩ := recased.split
    obtain rfl := last.eq_of_plain (by simp [isLetter])
    obtain ⟨_, rfl, later⟩ := front.uncons_plain (by decide)
    obtain ⟨_, rfl, inner⟩ := later.uncons_plain (by decide)
    exact .stars fun closes => inside (inner.infix_of_plain (by simp [isLetter]) closes)

theorem IsOpenComment.recased (opens : IsOpenComment comment) (recased : Recased comment other) :
    IsOpenComment other := by
  cases opens with
  | braces inside =>
    obtain ⟨_, rfl, inner⟩ := recased.uncons_plain (by decide)
    exact .braces fun member => inside (inner.mem_of_plain (by decide) member)
  | stars inside =>
    obtain ⟨_, rfl, later⟩ := recased.uncons_plain (by decide)
    obtain ⟨_, rfl, inner⟩ := later.uncons_plain (by decide)
    exact .stars fun closes => inside (inner.infix_of_plain (by simp [isLetter]) closes)

theorem IsGap.recased (skips : IsGap gap) (recased : Recased gap other) : IsGap other := by
  induction skips generalizing other with
  | nil =>
    rw [recased.eq_nil]
    exact .nil
  | space space _ ih =>
    obtain ⟨_, rfl, later⟩ := recased.uncons_plain (plain_of_space space)
    exact .space space (ih later)
  | comment is _ ih =>
    obtain ⟨_, _, rfl, front, later⟩ := recased.split
    exact .comment (is.recased front) (ih later)

theorem StartsGap.recased (starts : StartsGap text) (recased : Recased text other) : StartsGap other := by
  cases starts with
  | space space =>
    obtain ⟨_, rfl, _⟩ := recased.uncons_plain (plain_of_space space)
    exact .space space
  | braces =>
    obtain ⟨_, rfl, _⟩ := recased.uncons_plain (by decide)
    exact .braces
  | stars =>
    obtain ⟨_, rfl, later⟩ := recased.uncons_plain (by decide)
    obtain ⟨_, rfl, _⟩ := later.uncons_plain (by decide)
    exact .stars

end Gaps

/-! ## Tokens -/

/-- Numbers that differ in nothing but the case of the exponent mark. -/
structure Scan.NumberParts.Alike (parts other : NumberParts) : Prop where
  whole : parts.whole = other.whole
  fraction : parts.fraction = other.fraction
  exponent : parts.exponent.map (fun exponent => (exponent.1.map upperCase, exponent.2)) =
    other.exponent.map fun exponent => (exponent.1.map upperCase, exponent.2)

theorem IsExponent.recased {exponent : List Char × List Char} {other : List Char}
    (is : IsExponent exponent) (recased : Recased (exponent.1 ++ exponent.2) other) :
    ∃ exponent' : List Char × List Char, other = exponent'.1 ++ exponent'.2 ∧ IsExponent exponent' ∧
      (exponent.1.map upperCase, exponent.2) = (exponent'.1.map upperCase, exponent'.2) := by
  obtain ⟨mark', digits', rfl, marks, digits⟩ := recased.split
  refine ⟨(mark', digits'), rfl, ?_⟩
  have upper := marks.upper
  cases is with
  | @unsigned mark _ letter some all =>
    obtain rfl := digits.eq_of_digits all
    obtain ⟨_, _, rfl, first, none⟩ := marks.uncons
    obtain rfl := none.eq_nil
    exact ⟨.unsigned (first.mark letter) some all, by rw [upper]⟩
  | @signed mark sign _ letter signs all =>
    obtain rfl := digits.eq_of_digits all
    obtain ⟨_, _, rfl, first, later⟩ := marks.uncons
    obtain rfl := later.eq_of_plain (by rcases signs with rfl | rfl <;> simp [isLetter])
    exact ⟨.signed (first.mark letter) signs all, by rw [upper]⟩

theorem IsNumber.recased {parts : NumberParts} {other : List Char} (is : IsNumber parts)
    (recased : Recased parts.written other) :
    ∃ parts' : NumberParts, other = parts'.written ∧ IsNumber parts' ∧ parts.Alike parts' := by
  obtain ⟨whole, fraction, exponent⟩ := parts
  obtain ⟨nonempty, digits, afterPoint, marked⟩ := is
  obtain ⟨front, last, rfl, front', last'⟩ := recased.split
  have point : ∀ c ∈ fraction.elim [] ('.' :: ·), isLetter c = false := by
    cases fraction with
    | none => exact nofun
    | some fraction =>
      refine List.forall_mem_cons.mpr ⟨by decide, fun c member => ?_⟩
      exact not_letter_of_digit (afterPoint fraction rfl c member)
  have same : front = whole ++ fraction.elim [] ('.' :: ·) := by
    refine front'.eq_of_plain fun c member => ?_
    rcases List.mem_append.mp member with member | member
    · exact not_letter_of_digit (digits c member)
    · exact point c member
  subst same
  cases exponent with
  | none =>
    obtain rfl := last'.eq_nil
    exact ⟨⟨whole, fraction, none⟩, rfl, ⟨nonempty, digits, afterPoint, nofun⟩, rfl, rfl, rfl⟩
  | some exponent =>
    obtain ⟨exponent', rfl, is, upper⟩ := (marked exponent rfl).recased last'
    refine ⟨⟨whole, fraction, .some exponent'⟩, rfl, ⟨nonempty, digits, afterPoint, ?_⟩, rfl, rfl, ?_⟩
    · rintro _ ⟨⟩
      exact is
    · exact congrArg Option.some upper

namespace TokenClass

/-- The same class, up to the case of the exponent mark of a number. -/
inductive Alike : TokenClass → TokenClass → Prop
  | same (cls : TokenClass) : Alike cls cls
  | number {parts other : NumberParts} (alike : parts.Alike other) : Alike (.number parts) (.number other)

theorem Alike.rank {cls other : TokenClass} (alike : cls.Alike other) : other.rank = cls.rank := by
  cases alike <;> rfl

theorem Matches.recased {quote : Char} {cls : TokenClass} {row other : List Char}
    (is : cls.Matches quote row) (recased : Recased row other) :
    ∃ cls' : TokenClass, cls'.Matches quote other ∧ cls.Alike cls' := by
  cases is with
  | word letter all =>
    obtain ⟨_, _, rfl, first, later⟩ := recased.uncons
    exact ⟨.word, .word (first.letter letter) (later.forall_mem (·.identifierChar) all), .same _⟩
  | number is =>
    obtain ⟨parts', rfl, is', alike⟩ := is.recased recased
    exact ⟨.number parts', .number is', .number alike⟩
  | text noLetter noDigit inside line =>
    obtain ⟨_, _, rfl, front, last⟩ := recased.split
    obtain rfl := last.eq_of_plain (by simpa using noLetter)
    obtain ⟨_, rfl, inner⟩ := front.uncons_plain noLetter
    refine ⟨.text, .text noLetter noDigit ?_ ?_, .same _⟩
    · exact fun member => inside (inner.mem_of_plain noLetter member)
    · exact fun member => line (inner.mem_of_plain (by decide) member)
  | openText noLetter noDigit inside line =>
    obtain ⟨_, rfl, inner⟩ := recased.uncons_plain noLetter
    refine ⟨.openText, .openText noLetter noDigit ?_ ?_, .same _⟩
    · exact fun member => inside (inner.mem_of_plain noLetter member)
    · exact fun member => line (inner.mem_of_plain (by decide) member)
  | pair member =>
    have plain : ∀ row ∈ operatorPairs, ∀ c ∈ row, isLetter c = false := by
      simp [operatorPairs_eq, isLetter]
    obtain rfl := recased.eq_of_plain (plain row member)
    exact ⟨.pair, .pair member, .same _⟩
  | single =>
    obtain ⟨_, _, rfl, _, none⟩ := recased.uncons
    obtain rfl := none.eq_nil
    exact ⟨.single, .single _, .same _⟩

end TokenClass

/-- The longest match is the same in another case. -/
theorem Munches.recased {quote : Char} {cls : TokenClass} {row after row' after' : List Char}
    (munches : Munches quote (row ++ after) row cls) (recased : Recased row row')
    (later : Recased after after') :
    ∃ cls', Munches quote (row' ++ after') row' cls' ∧ cls.Alike cls' := by
  obtain ⟨_, is, longest, first⟩ := munches
  obtain ⟨cls', is', alike⟩ := is.recased recased
  refine ⟨cls', ⟨List.prefix_append _ _, is', ?_, ?_⟩, alike⟩
  · intro other more ⟨rest, split⟩ matched
    have back := (recased.append later).symm
    rw [← split] at back
    obtain ⟨more', rest', whole, again, _⟩ := back.split
    obtain ⟨other', matched', _⟩ := matched.recased again
    have bound := longest other' more' ⟨rest', whole.symm⟩ matched'
    rwa [again.length_eq, ← recased.length_eq] at bound
  · intro other matched
    obtain ⟨other', matched', alike'⟩ := matched.recased recased.symm
    rw [alike.rank, ← alike'.rank]
    exact first other' matched'

/-! ## Texts -/

/-- The text literals among some pieces stand in a text where they stand in the text of the pieces. -/
def KeepsLiterals (pieces : List Piece) (text : List Char) : Prop :=
  ∀ before piece after, pieces = before ++ piece :: after → piece.cls = .text →
    piece.row <+: text.drop
      ((before.flatMap fun piece => piece.gap ++ piece.row).length + piece.gap.length)

/-- Pieces that differ in nothing but the case of letters outside text literals. -/
structure Piece.Alike (quote : Char) (piece other : Piece) : Prop where
  is : piece.cls.Matches quote piece.row
  again : other.cls.Matches quote other.row
  cls : piece.cls.Alike other.cls
  row : Recased piece.row other.row
  literal : piece.cls = .text → other.row = piece.row

namespace KeepsLiterals

variable {piece : Piece} {pieces : List Piece} {gap row rest : List Char}
  (kept : KeepsLiterals (piece :: pieces) (gap ++ (row ++ rest))) (gaps : Recased piece.gap gap)
  (rows : Recased piece.row row)

include kept gaps rows

theorem head (literal : piece.cls = .text) : row = piece.row := by
  have stands := kept [] piece pieces rfl literal
  rw [List.flatMap_nil, List.length_nil, Nat.zero_add, ← gaps.length_eq, List.drop_left] at stands
  have front : row <+: row ++ rest := List.prefix_append row rest
  exact ((List.prefix_of_prefix_length_le stands front rows.length_eq.ge).eq_of_length
    rows.length_eq.symm).symm

theorem tail : KeepsLiterals pieces rest := by
  rintro before other after rfl literal
  have stands := kept (piece :: before) other after rfl literal
  have size : ((piece :: before).flatMap fun piece => piece.gap ++ piece.row).length + other.gap.length =
      (gap ++ row).length +
        ((before.flatMap fun piece => piece.gap ++ piece.row).length + other.gap.length) := by
    simp only [List.flatMap_cons, List.length_append, gaps.length_eq, rows.length_eq]
    omega
  rwa [size, ← List.append_assoc, List.drop_length_add_append] at stands

end KeepsLiterals

/-- A text in another case has the same pieces. -/
theorem Reads.recased {quote : Char} {text other tail : List Char} {pieces : List Piece} {opened : Bool}
    (reads : Reads quote text pieces tail opened) (recased : Recased text other)
    (kept : KeepsLiterals pieces other) :
    ∃ pieces' tail', Reads quote other pieces' tail' opened ∧
      List.Forall₂ (Piece.Alike quote) pieces pieces' := by
  induction reads generalizing other with
  | ends skips => exact ⟨[], other, .ends (skips.recased recased), .nil⟩
  | opens skips opens =>
    obtain ⟨gap', comment', rfl, gap, comment⟩ := recased.split
    exact ⟨[], _, .opens (skips.recased gap) (opens.recased comment), .nil⟩
  | @piece piece after tail pieces opened skips stops munches _ ih =>
    obtain ⟨gap', rest, rfl, gap, later⟩ := recased.split
    obtain ⟨row', after', rfl, row, later⟩ := later.split
    obtain ⟨cls', munches', alike⟩ := munches.recased row later
    obtain ⟨pieces', tail', reads', others⟩ := ih later (kept.tail gap row)
    have stops' : ¬ StartsGap (row' ++ after') :=
      fun starts => stops (starts.recased (row.append later).symm)
    refine ⟨⟨gap', row', cls'⟩ :: pieces', tail', ?_, .cons ?_ others⟩
    · exact @Reads.piece _ ⟨gap', row', cls'⟩ _ _ _ _ (skips.recased gap) stops' munches' reads'
    · exact ⟨munches.is, munches'.is, alike, row, kept.head gap row⟩

theorem Reads.matches {quote : Char} {text tail : List Char} {pieces : List Piece} {opened : Bool}
    (reads : Reads quote text pieces tail opened) :
    ∀ piece ∈ pieces, piece.cls.Matches quote piece.row := by
  induction reads with
  | ends | opens => exact nofun
  | piece _ _ munches _ ih => exact List.forall_mem_cons.mpr ⟨munches.is, ih⟩

/-- What stands in front of the first quote is in no text literal. -/
theorem KeepsLiterals.of_front {quote : Char} {front other back tail : List Char} {pieces : List Piece}
    {opened : Bool} (reads : Reads quote (front ++ back) pieces tail opened) (plain : quote ∉ front)
    (size : other.length = front.length) : KeepsLiterals pieces (other ++ back) := by
  intro before piece after split literal
  have is := reads.matches piece (split ▸ List.mem_append_right _ List.mem_cons_self)
  have text := reads.text_eq
  rw [literal] at is
  rw [split] at text
  generalize place : (before.flatMap fun piece => piece.gap ++ piece.row).length + piece.gap.length = n
  have rest : ∃ later, (front ++ back).drop n = piece.row ++ later := by
    refine ⟨(after.flatMap fun piece => piece.gap ++ piece.row) ++ tail, ?_⟩
    rw [text, ← place]
    simp [← List.drop_drop]
  obtain ⟨later, rest⟩ := rest
  have late : front.length ≤ n := by
    by_contra early
    obtain ⟨c, more, starts⟩ := List.exists_cons_of_ne_nil is.ne_nil
    obtain ⟨rfl, _⟩ := is.starts starts
    have first : (front ++ back)[n]? = some c := by
      rw [← List.head?_drop, rest, starts]
      rfl
    rw [List.getElem?_append_left (by omega)] at first
    exact plain (List.mem_of_getElem? first)
  have same : (other ++ back).drop n = (front ++ back).drop n := by
    rw [List.drop_append, List.drop_append, List.drop_of_length_le (by omega),
      List.drop_of_length_le late, size]
  rw [same, rest]
  exact List.prefix_append _ _

end MiniPascal
