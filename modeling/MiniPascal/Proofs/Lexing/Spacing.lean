import MiniPascal.Proofs.Lexing.MaximalMunch

/-! # Layout does not matter

The lexemes of a text can be written out again with any gaps between them, as long as each gap between
two lexemes has a character. The new text has the same tokens and the same symbols, and nothing is
complained about in it: a gap starts with a character that no token goes on with, so that no two lexemes
run together, and a lexeme that was cut to the limits is within them.
-/

namespace MiniPascal

open Scan

/-! ## Texts with the same lexemes -/

/-- Some lexemes with gaps around them; only the gap before the first one may be empty. -/
inductive LaidOut : (first : Bool) → List (List Char) → List Char → Prop
  | ends {first : Bool} {gap : List Char} (skips : IsGap gap) : LaidOut first [] gap
  | row {first : Bool} {gap row after : List Char} {rows : List (List Char)} (skips : IsGap gap)
      (apart : gap = [] → first = true) (later : LaidOut false rows after) :
      LaidOut first (row :: rows) (gap ++ (row ++ after))

/-- What may follow a lexeme: a gap or nothing. -/
def GapOrEnd (text : List Char) : Prop := text = [] ∨ StartsGap text

theorem IsGap.append {gap more : List Char} (skips : IsGap gap) (skips' : IsGap more) :
    IsGap (gap ++ more) := by
  induction skips with
  | nil => exact skips'
  | space space _ ih => exact .space space ih
  | comment is _ ih =>
    rw [List.append_assoc]
    exact .comment is ih

theorem IsGap.starts {gap : List Char} (skips : IsGap gap) (some : gap ≠ []) (rest : List Char) :
    StartsGap (gap ++ rest) := by
  cases skips with
  | nil => exact absurd rfl some
  | space space => exact .space space
  | comment is =>
    cases is with
    | braces => exact .braces
    | stars => exact .stars

theorem LaidOut.apart {rows : List (List Char)} {text : List Char} (laid : LaidOut false rows text) :
    GapOrEnd text := by
  cases laid with
  | ends skips =>
    by_cases none : text = []
    · exact .inl none
    · have starts := skips.starts none []
      rw [List.append_nil] at starts
      exact .inr starts
  | row skips apart =>
    refine .inr (skips.starts (fun none => ?_) _)
    cases apart none

/-- A line end after the text is one more gap. -/
theorem LaidOut.newline {first : Bool} {rows : List (List Char)} {text : List Char}
    (laid : LaidOut first rows text) : LaidOut first rows (text ++ ['\n']) := by
  induction laid with
  | ends skips => exact .ends (skips.append (.space (by decide) .nil))
  | row skips apart _ ih =>
    rw [List.append_assoc, List.append_assoc]
    exact .row skips apart ih

theorem LaidOut.endLast {first : Bool} {rows : List (List Char)} {text : List Char}
    (laid : LaidOut first rows text) : LaidOut first rows (endLast text) := by
  unfold MiniPascal.endLast
  split
  · exact laid
  · exact laid.newline

/-! ## Carriage returns in gaps -/

theorem getLast_of_cons {c : Char} {text : List Char} (free : (c :: text).getLast? ≠ some '\r') :
    text.getLast? ≠ some '\r' := by
  intro last
  rw [List.getLast?_cons, last] at free
  exact free rfl

theorem dropReturns_append {text rest : List Char}
    (free : text.getLast? ≠ some '\r' ∨ ∀ d ∈ rest.head?, d ≠ '\n') :
    dropReturns (text ++ rest) = dropReturns text ++ dropReturns rest := by
  fun_induction dropReturns text with
  | case1 => rfl
  | case2 more ih =>
    rw [List.cons_append, List.cons_append, dropReturns,
      ih (free.imp_left fun free => getLast_of_cons (getLast_of_cons free)), List.cons_append]
  | case3 c more other ih =>
    rw [List.cons_append, dropReturns_cons, ih (free.imp_left getLast_of_cons), List.cons_append]
    by_cases carriage : c = '\r'
    · right
      cases more with
      | nil => exact free.resolve_left (by simp [carriage])
      | cons d more =>
        rintro _ ⟨⟩ newline
        exact other more carriage (by rw [newline])
    · exact .inl carriage

theorem dropReturns_subset (text : List Char) : dropReturns text ⊆ text := by
  fun_induction dropReturns text with
  | case1 => exact List.Subset.refl _
  | case2 more ih => exact List.subset_cons_of_subset _ (List.cons_subset_cons _ ih)
  | case3 c more other ih => exact List.cons_subset_cons c ih

/-- A text starts as it does without its carriage returns, unless that is a line end. -/
theorem cons_of_dropReturns {d : Char} {text rest : List Char} (kept : dropReturns text = d :: rest)
    (visible : d ≠ '\n') : ∃ more, text = d :: more := by
  revert kept
  fun_cases dropReturns text with
  | case1 => exact nofun
  | case2 more => exact fun kept => absurd (List.cons.inj kept).1.symm visible
  | case3 c more other => exact fun kept => ⟨more, by rw [(List.cons.inj kept).1]⟩

theorem dropReturns_ne_nil {text : List Char} (some : text ≠ []) : dropReturns text ≠ [] := by
  fun_cases dropReturns text with
  | case1 => exact absurd rfl some
  | case2 | case3 => exact List.cons_ne_nil _ _

/-- Without its carriage returns a text has no closing of a comment that it did not have. -/
theorem closing_of_dropReturns {text : List Char} (closes : ['*', ')'] <:+: dropReturns text) :
    ['*', ')'] <:+: text := by
  fun_induction dropReturns text with
  | case1 => exact closes
  | case2 more ih =>
    have later := closing_of_cons (fun _ star => absurd star (by decide)) closes
    exact List.infix_cons (List.infix_cons (ih later))
  | case3 c more other ih =>
    obtain ⟨rest, same⟩ | later := List.infix_cons_iff.mp closes
    · obtain ⟨rfl, kept⟩ := List.cons.inj same
      obtain ⟨more, rfl⟩ := cons_of_dropReturns kept.symm (by decide)
      exact List.infix_append [] ['*', ')'] more
    · exact List.infix_cons (ih later)

theorem IsComment.dropReturns {comment : List Char} (is : IsComment comment) :
    IsComment (dropReturns comment) := by
  cases is with
  | @braces inner inside =>
    rw [dropReturns_append (.inr (by rintro _ ⟨⟩; decide)), dropReturns_cons (.inl (by decide))]
    exact .braces fun member => inside (dropReturns_subset inner member)
  | @stars inner inside =>
    rw [dropReturns_append (.inr (by rintro _ ⟨⟩; decide)), dropReturns_cons (.inl (by decide)),
      dropReturns_cons (.inl (by decide))]
    exact .stars fun closes => inside (closing_of_dropReturns closes)

theorem IsComment.last {comment : List Char} (is : IsComment comment) :
    comment.getLast? ≠ some '\r' := by
  cases is <;> rw [List.getLast?_append_of_ne_nil _ (List.cons_ne_nil _ _)] <;> decide

theorem IsGap.dropReturns {gap : List Char} (skips : IsGap gap) : IsGap (dropReturns gap) := by
  induction skips with
  | nil => exact .nil
  | @space c rest space more ih =>
    by_cases other : c ≠ '\r' ∨ ∀ d ∈ rest.head?, d ≠ '\n'
    · rw [dropReturns_cons other]
      exact .space space ih
    · obtain ⟨rfl, ends⟩ : c = '\r' ∧ rest.head? = some '\n' := by simpa using other
      obtain ⟨below, rfl⟩ := List.head?_eq_some_iff.mp ends
      exact ih
  | comment is _ ih =>
    rw [dropReturns_append (.inl is.last)]
    exact .comment is.dropReturns ih

/-- A lexeme has no line end in it, and no carriage return at its end. -/
def PlainRow (row : List Char) : Prop := row ≠ [] ∧ '\n' ∉ row ∧ row.getLast? ≠ some '\r'

theorem dropReturns_of_plain {row : List Char} (plain : '\n' ∉ row) : dropReturns row = row := by
  fun_induction dropReturns row with
  | case1 => rfl
  | case2 more ih => exact absurd (List.mem_cons_of_mem _ List.mem_cons_self) plain
  | case3 c more other ih => rw [ih fun newline => plain (List.mem_cons_of_mem _ newline)]

theorem LaidOut.dropReturns {first : Bool} {rows : List (List Char)} {text : List Char}
    (laid : LaidOut first rows text) (plain : ∀ row ∈ rows, PlainRow row) :
    LaidOut first rows (dropReturns text) := by
  induction laid with
  | ends skips => exact .ends skips.dropReturns
  | @row first gap row after rows skips apart _ ih =>
    obtain ⟨⟨some, line, last⟩, plain⟩ := List.forall_mem_cons.mp plain
    have visible : ∀ d ∈ (row ++ after).head?, d ≠ '\n' := by
      rintro d head rfl
      rw [List.head?_append_of_ne_nil row some] at head
      exact line (List.mem_of_mem_head? head)
    rw [dropReturns_append (.inr visible), dropReturns_append (.inl last), dropReturns_of_plain line]
    refine .row skips.dropReturns (fun none => apart ?_) (ih plain)
    by_contra some
    exact dropReturns_ne_nil some none

/-! ## Lexemes that stand alone -/

/-- The characters that a gap may start with. -/
def gapStarts : List Char := [' ', '\t', '\n', '\r', '\x7b', '(']

/-- No word and no number goes on with a gap. -/
theorem of_mem_gapStarts {c : Char} (gap : c ∈ gapStarts) :
    isLetter c = false ∧ isIdentifierChar c = false ∧ ¬ isNumeral c := by
  simp only [gapStarts, List.mem_cons, List.not_mem_nil, or_false] at gap
  unfold isNumeral isMark
  obtain rfl | rfl | rfl | rfl | rfl | rfl := gap <;> decide

theorem StartsGap.mem {c : Char} {rest : List Char} (starts : StartsGap (c :: rest)) :
    c ∈ gapStarts := by
  cases starts with
  | space space =>
    simp only [isSpace, Bool.or_eq_true, beq_iff_eq] at space
    obtain ((rfl | rfl) | rfl) | rfl := space <;> decide
  | braces => decide
  | stars => decide

theorem GapOrEnd.mem {c : Char} {text : List Char} (apart : GapOrEnd text)
    (head : text.head? = some c) : c ∈ gapStarts := by
  obtain ⟨rest, rfl⟩ := List.head?_eq_some_iff.mp head
  exact (apart.resolve_left (List.cons_ne_nil _ _)).mem

namespace TokenClass.Matches

variable {quote : Char} {row tail : List Char} {cls other : TokenClass}

/-- What a text starts with is a text that is not closed. -/
theorem openText_of_append (is : other.Matches quote (row ++ tail))
    (quoted : other = .text ∨ other = .openText) (some : row ≠ []) (more : tail ≠ []) :
    TokenClass.openText.Matches quote row := by
  obtain ⟨c, row, rfl⟩ := List.exists_cons_of_ne_nil some
  have longer := List.length_pos_of_ne_nil more
  generalize whole : c :: row ++ tail = text at is
  cases is with
  | word | number | pair | single => simp at quoted
  | @text inner noLetter noDigit inside line =>
    obtain ⟨rfl, same⟩ : c = quote ∧ row ++ tail = inner ++ [quote] := List.cons.inj whole
    have length := congrArg List.length same
    simp only [List.length_append, List.length_singleton] at length
    have front : row <+: inner :=
      List.prefix_of_prefix_length_le ⟨tail, same⟩ (List.prefix_append inner [c]) (by omega)
    exact .openText noLetter noDigit (fun quote => inside (front.mem quote))
      fun newline => line (front.mem newline)
  | @openText inner noLetter noDigit inside line =>
    obtain ⟨rfl, rfl⟩ := List.cons.inj whole
    exact .openText noLetter noDigit (fun quote => inside (List.mem_append_left _ quote))
      fun newline => line (List.mem_append_left _ newline)

/-- A text that is not closed is nothing that counts before it. -/
theorem rank_of_openText (is : cls.Matches quote row)
    (opens : TokenClass.openText.Matches quote row) (closed : cls ≠ .openText) :
    TokenClass.openText.rank < cls.rank := by
  generalize same : row = token at opens
  cases opens with
  | @openText inner noLetter noDigit inside =>
    subst same
    have rank := is.rank_ge (leastRank_quote noLetter noDigit)
    generalize same : quote :: inner = token at is
    cases is with
    | word | number => exact absurd rank (by simp [TokenClass.rank])
    | text =>
      obtain ⟨_, rfl⟩ := List.cons.inj same
      exact absurd (List.mem_append_right _ List.mem_cons_self) inside
    | openText => exact absurd rfl closed
    | pair | single => decide

end TokenClass.Matches

/-- Nothing runs together with what is apart. -/
theorem Munches.of_gapOrEnd {quote : Char} {row after : List Char} {cls : TokenClass}
    (is : cls.Matches quote row)
    (first : ∀ other : TokenClass, other.Matches quote row → cls.rank ≤ other.rank)
    (closed : cls ≠ .openText) (apart : GapOrEnd after) : Munches quote (row ++ after) row cls := by
  refine ⟨List.prefix_append _ _, is, fun other more ahead is' => ?_, first⟩
  by_contra longer
  obtain ⟨tail, rfl⟩ := List.prefix_of_prefix_length_le (List.prefix_append row after) ahead (by omega)
  cases tail with
  | nil => exact longer (by simp)
  | cons d tail =>
    obtain ⟨rest, same⟩ := (List.prefix_append_right_inj row).mp ahead
    have gap : d ∈ gapStarts := apart.mem (by rw [← same]; rfl)
    have within : d ∈ row ++ d :: tail := List.mem_append_right _ List.mem_cons_self
    have filled := List.length_pos_of_ne_nil is.ne_nil
    by_cases quoted : other = .text ∨ other = .openText
    · have opens := is'.openText_of_append quoted is.ne_nil (List.cons_ne_nil _ _)
      exact absurd (first _ opens) (Nat.not_le.mpr (is.rank_of_openText opens closed))
    generalize whole : row ++ d :: tail = token at is' within
    have length := congrArg List.length whole
    rw [List.length_append, List.length_cons] at length
    cases is' with
    | word letter all =>
      obtain ⟨noLetter, noMore, _⟩ := of_mem_gapStarts gap
      obtain rfl | within := List.mem_cons.mp within
      · exact absurd letter (by simp [noLetter])
      · exact absurd (all d within) (by simp [noMore])
    | number number => exact (of_mem_gapStarts gap).2.2 (number.numerals d within)
    | text | openText => simp at quoted
    | pair member =>
      have free : ∀ row ∈ operatorPairs, row.getLast?.all (· ∉ gapStarts) = true := by
        rw [operatorPairs_eq]
        decide
      have two := length_of_mem_operatorPairs member
      obtain rfl : tail = [] := List.length_eq_zero_iff.mp (by omega)
      have last := free token member
      rw [← whole, List.getLast?_append_of_ne_nil _ (List.cons_ne_nil _ _)] at last
      exact absurd gap (of_decide_eq_true last)
    | single =>
      rw [List.length_singleton] at length
      omega

/-- A token that starts no gap starts none where it stands apart. -/
theorem not_startsGap_of_gapOrEnd {row before after : List Char} (some : row ≠ [])
    (stops : ¬ StartsGap (row ++ before)) (apart : GapOrEnd after) : ¬ StartsGap (row ++ after) := by
  obtain ⟨c, row, rfl⟩ := List.exists_cons_of_ne_nil some
  intro starts
  cases row with
  | nil =>
    generalize same : [c] ++ after = text at starts
    cases starts with
    | space space =>
      obtain ⟨rfl, _⟩ := List.cons.inj same
      exact stops (.space space)
    | braces =>
      obtain ⟨rfl, _⟩ := List.cons.inj same
      exact stops .braces
    | stars =>
      obtain ⟨_, star⟩ : c = '(' ∧ after = '*' :: _ := List.cons.inj same
      exact absurd (apart.mem (by rw [star]; rfl)) (by decide)
  | cons d row =>
    cases starts with
    | space space => exact stops (.space space)
    | braces => exact stops .braces
    | stars => exact stops .stars

/-- A token that is complete has no line end in it and no carriage return at its end. -/
theorem TokenClass.Matches.plainRow {quote : Char} {row : List Char} {cls : TokenClass}
    (is : cls.Matches quote row) (closed : cls ≠ .openText)
    (visible : ∀ c ∈ row.head?, isSpace c = false) : PlainRow row := by
  refine ⟨is.ne_nil, is.line fun c head => ?_, fun last => ?_⟩
  · rintro rfl
    exact absurd (visible _ head) (by decide)
  · have member := List.mem_of_getLast? last
    cases is with
    | word letter all =>
      obtain rfl | member := List.mem_cons.mp member
      · exact absurd letter (by decide)
      · exact absurd (all _ member) (by decide)
    | number number =>
      refine absurd (number.numerals _ member) ?_
      simp only [isNumeral, isMark]
      decide
    | text =>
      rw [List.getLast?_append_of_ne_nil _ (List.cons_ne_nil _ _)] at last
      cases last
      exact absurd (visible _ rfl) (by decide)
    | openText => exact closed rfl
    | pair pair =>
      have free : ∀ row ∈ operatorPairs, row.getLast? ≠ some '\r' := by
        rw [operatorPairs_eq]
        decide
      exact free row pair last
    | single =>
      cases last
      exact absurd (visible _ rfl) (by decide)

/-- A row that is one token wherever it stands apart. -/
structure StandsAlone (quote : Char) (row : List Char) (cls : TokenClass) : Prop where
  plain : PlainRow row
  munches : ∀ after, GapOrEnd after → Munches quote (row ++ after) row cls
  stops : ∀ after, GapOrEnd after → ¬ StartsGap (row ++ after)

theorem StandsAlone.of_stops {quote : Char} {row before : List Char} {cls : TokenClass}
    (is : cls.Matches quote row)
    (first : ∀ other : TokenClass, other.Matches quote row → cls.rank ≤ other.rank)
    (closed : cls ≠ .openText) (stops : ¬ StartsGap (row ++ before)) : StandsAlone quote row cls := by
  refine ⟨is.plainRow closed fun c head => ?_, fun _ => .of_gapOrEnd is first closed,
    fun _ => not_startsGap_of_gapOrEnd is.ne_nil stops⟩
  obtain ⟨rest, rfl⟩ := List.head?_eq_some_iff.mp head
  by_contra space
  exact stops (.space (by simpa using space))

/-! ## Lexemes within the limits -/

/-- A token that nothing is complained about in. -/
def Lexeme.quiet (found : Lexeme) : Lexeme := { found with issues := [] }

theorem take_take_self (limit : Nat) (row : List Char) :
    (row.take limit).take limit = row.take limit := by
  rw [List.take_take, Nat.min_self]

theorem not_lt_length_take (limit : Nat) (row : List Char) : ¬ limit < (row.take limit).length := by
  rw [List.length_take]
  omega

theorem word_kept (row : List Char) :
    TokenClass.word.lexeme (TokenClass.word.lexeme row).token.lexeme =
      (TokenClass.word.lexeme row).quiet := by
  unfold TokenClass.lexeme Lexeme.quiet
  dsimp only
  rw [take_take_self, if_neg (not_lt_length_take _ _)]

theorem IsExponent.kept {exponent : List Char × List Char} (is : IsExponent exponent) {limit : Nat}
    (positive : limit ≠ 0) : IsExponent (exponent.1, exponent.2.take limit) := by
  cases is with
  | unsigned letter some all =>
    exact .unsigned letter (by simp [some, positive])
      fun d member => all d (List.mem_of_mem_take member)
  | signed letter signs all =>
    exact .signed letter signs fun d member => all d (List.mem_of_mem_take member)

theorem IsNumber.kept {parts : NumberParts} (is : IsNumber parts) : IsNumber parts.kept := by
  obtain ⟨whole, fraction, exponent⟩ := parts
  obtain ⟨some, digits, afterPoint, marked⟩ := is
  refine ⟨?_, fun d member => digits d (List.mem_of_mem_take member), ?_, ?_⟩
  · simpa [NumberParts.kept, lexemeLimits] using some
  · cases fraction with
    | none =>
      intro _ member
      cases member
    | some fraction =>
      rintro _ ⟨⟩ d member
      exact afterPoint fraction rfl d (List.mem_of_mem_take member)
  · cases exponent with
    | none =>
      intro _ member
      cases member
    | some exponent =>
      rintro _ ⟨⟩
      exact (marked exponent rfl).kept (by decide)

theorem kept_kept (parts : NumberParts) : parts.kept.kept = parts.kept := by
  unfold NumberParts.kept
  simp only [take_take_self, Option.map_map, Function.comp_def]

theorem kept_uncut (parts : NumberParts) : ¬ lexemeLimits.whole < parts.kept.whole.length ∧
    parts.kept.fraction.any (lexemeLimits.fraction < ·.length) = false ∧
    parts.kept.exponent.any (lexemeLimits.exponent < ·.2.length) = false := by
  obtain ⟨whole, fraction, exponent⟩ := parts
  refine ⟨not_lt_length_take _ _, ?_, ?_⟩
  · cases fraction with
    | none => rfl
    | some fraction => exact decide_eq_false (not_lt_length_take _ _)
  · cases exponent with
    | none => rfl
    | some exponent => exact decide_eq_false (not_lt_length_take _ _)

theorem number_kept {parts : NumberParts} {row : List Char}
    (fine : ∀ issue ∈ ((TokenClass.number parts).lexeme row).issues, issue.level ≠ .error) :
    (TokenClass.number parts.kept).lexeme ((TokenClass.number parts).lexeme row).token.lexeme =
      ((TokenClass.number parts).lexeme row).quiet := by
  have flags : (parts.kept.fraction.isNone && parts.kept.exponent.isNone) =
      (parts.fraction.isNone && parts.exponent.isNone) := by
    unfold NumberParts.kept
    rw [Option.isNone_map, Option.isNone_map]
  obtain ⟨whole, fraction, exponent⟩ := kept_uncut parts
  unfold TokenClass.lexeme Lexeme.quiet at *
  dsimp only at fine ⊢
  rw [kept_kept, flags, if_neg whole, fraction, exponent]
  generalize (if (parts.fraction.isNone && parts.exponent.isNone) = true then
    (readWhole? parts.kept.written).map Value.int
    else (readReal? parts.kept.written).map Value.real) = value at fine ⊢
  cases value with
  | none =>
    refine absurd rfl (fine (.malformedNumber parts.kept.written) ?_)
    simp
  | some value => rfl

/-- The lexeme of a token without errors is again a token, with nothing to complain about. -/
theorem Piece.stands {quote : Char} {piece : Piece} {after : List Char}
    (munches : Munches quote (piece.row ++ after) piece.row piece.cls)
    (stops : ¬ StartsGap (piece.row ++ after))
    (fine : ∀ issue ∈ piece.lexeme.issues, issue.level ≠ .error) :
    ∃ cls : TokenClass, StandsAlone quote piece.lexeme.token.lexeme cls ∧
      cls.lexeme piece.lexeme.token.lexeme = piece.lexeme.quiet := by
  obtain ⟨gap, row, cls⟩ := piece
  dsimp only at munches stops
  have is := munches.is
  cases cls with
  | word =>
    cases is with
    | @word c rest letter all =>
      have kept : TokenClass.word.Matches quote ((c :: rest).take lexemeLimits.identifier) :=
        .word letter fun d member => all d (List.mem_of_mem_take member)
      have stops : ¬ StartsGap ((c :: rest).take lexemeLimits.identifier ++ []) := by
        intro starts
        exact absurd letter (by simp [of_mem_gapStarts starts.mem])
      exact ⟨.word, .of_stops kept (fun _ _ => Nat.zero_le _) nofun stops, word_kept (c :: rest)⟩
  | number parts =>
    cases is with
    | number number =>
      have kept : (TokenClass.number parts.kept).Matches quote parts.kept.written := .number number.kept
      obtain ⟨c, rest, front⟩ := List.exists_cons_of_ne_nil kept.ne_nil
      have digit : isDigit c = true := kept.starts front
      have stops : ¬ StartsGap (parts.kept.written ++ []) := by
        rw [front]
        intro starts
        exact (of_mem_gapStarts starts.mem).2.2 (.inl digit)
      exact ⟨.number parts.kept, .of_stops kept (fun _ is => is.rank_pos number.kept) nofun stops,
        number_kept fine⟩
  | text => exact ⟨.text, .of_stops is munches.first nofun stops, rfl⟩
  | openText => exact absurd rfl (fine (.openText row) List.mem_cons_self)
  | pair => exact ⟨.pair, .of_stops is munches.first nofun stops, rfl⟩
  | single => exact ⟨.single, .of_stops is munches.first nofun stops, rfl⟩

/-! ## Reading the lexemes again -/

/-- The lexemes of a text without errors are tokens that stand alone. -/
theorem Reads.stand {quote : Char} {text tail : List Char} {pieces : List Piece} {opened : Bool}
    (reads : Reads quote text pieces tail opened)
    (fine : ∀ piece ∈ pieces, ∀ issue ∈ piece.lexeme.issues, issue.level ≠ .error) :
    ∃ tokens : List (List Char × TokenClass), (∀ token ∈ tokens, StandsAlone quote token.1 token.2) ∧
      tokens.map (·.1) = pieces.map (·.lexeme.token.lexeme) ∧
      tokens.map (fun token => token.2.lexeme token.1) = pieces.map (·.lexeme.quiet) := by
  induction reads with
  | ends | opens => exact ⟨[], nofun, rfl, rfl⟩
  | @piece piece after _ pieces _ _ stops munches _ ih =>
    rw [List.forall_mem_cons] at fine
    obtain ⟨cls, stands, quiet⟩ := Piece.stands munches stops fine.1
    obtain ⟨tokens, stand, rows, lexemes⟩ := ih fine.2
    refine ⟨(piece.lexeme.token.lexeme, cls) :: tokens,
      List.forall_mem_cons.mpr ⟨stands, stand⟩, ?_, ?_⟩
    · rw [List.map_cons, List.map_cons, rows]
    · rw [List.map_cons, List.map_cons, lexemes, quiet]

/-- Tokens that stand alone are read again wherever they are laid out. -/
theorem LaidOut.reads {quote : Char} {first : Bool} {text : List Char}
    {tokens : List (List Char × TokenClass)} (laid : LaidOut first (tokens.map (·.1)) text)
    (stand : ∀ token ∈ tokens, StandsAlone quote token.1 token.2) :
    ∃ pieces tail, Reads quote text pieces tail false ∧
      pieces.map (fun piece => (piece.row, piece.cls)) = tokens := by
  induction tokens generalizing first text with
  | nil =>
    cases laid with
    | ends skips => exact ⟨[], text, .ends skips, rfl⟩
  | cons token tokens ih =>
    obtain ⟨row, cls⟩ := token
    obtain ⟨stands, stand⟩ := List.forall_mem_cons.mp stand
    cases laid with
    | @row _ gap _ after _ skips apart later =>
      obtain ⟨pieces, tail, reads, same⟩ := ih later stand
      refine ⟨⟨gap, row, cls⟩ :: pieces, tail, ?_, by rw [List.map_cons, same]⟩
      have munches : Munches quote (row ++ after) row cls := stands.munches after later.apart
      have stops : ¬ StartsGap (row ++ after) := stands.stops after later.apart
      exact @Reads.piece quote ⟨gap, row, cls⟩ _ _ _ _ skips stops munches reads

/-! ## Handing over the lexemes again -/

/-- Whether there is no error among some complaints. -/
def NoError (issues : List Diagnostic) : Prop := ∀ issue ∈ issues, issue.level ≠ .error

theorem Lexing.Complains.noError {lexing after : Lexing} {issues : List Diagnostic}
    (complains : Complains lexing issues after) (none : after.lexicalErrors = 0) : NoError issues := by
  have errors := complains.errors
  rw [none] at errors
  have count := Nat.eq_zero_of_add_eq_zero_left errors.symm
  simpa [NoError, List.countP_eq_zero] using count

theorem level_of_mem_refusal {symbols : SymbolTable} {found : Lexeme} {issue : Diagnostic}
    (member : issue ∈ found.refusal symbols) : issue.level = .error := by
  unfold Lexeme.refusal at member
  cases registered : found.registration with
  | none =>
    rw [registered] at member
    cases member
  | some registration =>
    rw [registered, Option.elim_some] at member
    split at member
    · cases member
    · rw [List.mem_singleton.mp member]
      rfl

/-- Without errors there are no complaints but those about the tokens themselves. -/
theorem complaints_quiet {symbols : SymbolTable} {found : List Lexeme}
    (fine : NoError (complaints symbols found)) :
    complaints symbols (found.map Lexeme.quiet) = [] ∧ ∀ lexeme ∈ found, NoError lexeme.issues := by
  induction found generalizing symbols with
  | nil => exact ⟨rfl, List.forall_mem_nil _⟩
  | cons first found ih =>
    unfold complaints NoError at fine
    simp only [List.forall_mem_append] at fine
    obtain ⟨⟨own, refusal⟩, later⟩ := fine
    obtain ⟨silent, each⟩ := ih later
    have room : first.refusal symbols = [] := List.eq_nil_iff_forall_not_mem.mpr fun issue member =>
      refusal issue member (level_of_mem_refusal member)
    refine ⟨?_, List.forall_mem_cons.mpr ⟨own, each⟩⟩
    change [] ++ first.refusal symbols ++ complaints (first.register symbols) _ = []
    rw [room, silent]
    rfl

theorem foldl_register_quiet (symbols : SymbolTable) (found : List Lexeme) :
    (found.map Lexeme.quiet).foldl Lexeme.register symbols = found.foldl Lexeme.register symbols := by
  rw [List.foldl_map]
  rfl

/-- Each request takes one item at most. -/
theorem Lexing.length_unread_all (fuel : Nat) (lexing : Lexing) :
    lexing.unread.length ≤ (lexing.all fuel).2.unread.length + fuel := by
  induction fuel generalizing lexing with
  | zero => exact Nat.le_refl _
  | succ fuel ih =>
    cases unread : lexing.unread with
    | nil => exact Nat.zero_le _
    | cons item items =>
      have left : lexing.next.2.unread = items := (next_cons unread).2.1
      unfold all
      generalize lexing.next = result at left ⊢
      subst left
      obtain ⟨_ | token, after⟩ := result
      · exact Nat.add_le_add_left (Nat.le_add_left 1 fuel) _
      · exact Nat.succ_le_succ (ih after)

theorem Lexing.enough_of_ended {quote : Char} {capacity : Nat} {watch : Watch} {streams : List Stream}
    {pieces : List Piece} {tail : List Char} {opened : Bool} {fuel : Nat}
    (reads : Reads quote (joinLines (sourceLines streams).1) pieces tail opened)
    (ended : ((start quote capacity watch (.ofStreams streams)).all fuel).2.ended = true) :
    pieces.length < fuel := by
  have told := congrArg List.length (unread_start capacity watch reads)
  have taken := length_unread_all fuel (start quote capacity watch (.ofStreams streams))
  rw [List.isEmpty_iff.mp ended, List.length_nil, Nat.zero_add] at taken
  simp only [List.length_map, outcomes, List.length_append, List.length_singleton,
    length_tokenLines] at told
  omega

theorem tokens_of_pieces (line : Nat) (pieces : List Piece) :
    ((tokenLines line pieces).map (fun found => (found.1.token, found.2))).map (·.1) =
      (pieces.map Piece.lexeme).map (·.token) := by
  rw [← map_tokenLines line, List.map_map, List.map_map]
  rfl

/-- The lexemes of a text without errors are read again from a stream that they are laid out in. -/
theorem Reads.again {quote : Char} {text tail : List Char} {pieces : List Piece} {opened : Bool}
    (reads : Reads quote text pieces tail opened)
    (silent : ∀ piece ∈ pieces, NoError piece.lexeme.issues) {stream : Stream}
    (fine : stream.failing = none)
    (laid : LaidOut true (pieces.map (·.lexeme.token.lexeme)) stream.chars) :
    ∃ pieces' tail', Reads quote (joinLines (sourceLines [stream]).1) pieces' tail' false ∧
      pieces'.map Piece.lexeme = (pieces.map Piece.lexeme).map Lexeme.quiet := by
  obtain ⟨tokens, stand, rows, lexemes⟩ := reads.stand silent
  have plain : ∀ row ∈ tokens.map (·.1), PlainRow row :=
    List.forall_mem_map.mpr fun token member => (stand token member).plain
  have source : joinLines (sourceLines [stream]).1 = dropReturns (endLast stream.chars) := by
    have one : (sourceLines [stream]).1 = stream.lines := by simp [sourceLines, fine]
    rw [one, Stream.joinLines_lines fine]
  rw [← rows] at laid
  obtain ⟨pieces', tail', reads', split⟩ := (laid.endLast.dropReturns plain).reads stand
  refine ⟨pieces', tail', source ▸ reads', ?_⟩
  rw [List.map_map, Function.comp_def, ← lexemes, ← split, List.map_map]
  rfl

/-- The lexemes of a text without lexical errors, written out again in any layout, bring the same tokens
and the same symbols, and nothing is complained about. -/
theorem tokens_do_not_depend_on_layout (quote : Char) (capacity : Nat) (watch watch' : Watch)
    (streams : List Stream) (stream : Stream) (fuel fuel' : Nat) :
    let given := (Lexing.start quote capacity watch (.ofStreams streams)).all fuel
    let again := (Lexing.start quote capacity watch' (.ofStreams [stream])).all fuel'
    given.2.ended = true → given.2.lexicalErrors = 0 → stream.failing = none →
      LaidOut true (given.1.map (·.1.lexeme)) stream.chars → given.1.length < fuel' →
      again.1.map (·.1) = given.1.map (·.1) ∧ again.2.ended = true ∧
        again.2.symbols = given.2.symbols ∧ again.2.lexicalErrors = 0 ∧
        (watch'.diagnostics = true → again.2.journal.reports = []) := by
  intro given again ended errors fine laid enough
  obtain ⟨pieces, tail, opened, reads, _⟩ := Lexing.start_outcomes quote capacity watch streams
  obtain ⟨tokens, _, _, symbols, complains⟩ :=
    Lexing.all_start capacity watch reads (Lexing.enough_of_ended reads ended)
  have noError := complains.noError errors
  unfold NoError at noError
  rw [List.forall_mem_append] at noError
  obtain ⟨silent, each⟩ := complaints_quiet noError.1
  have found : given.1.map (·.1) = (pieces.map Piece.lexeme).map (·.token) := by
    rw [← tokens_of_pieces 1, ← tokens]
  have rows : given.1.map (·.1.lexeme) = pieces.map (·.lexeme.token.lexeme) := by
    simpa [List.map_map, Function.comp_def] using congrArg (List.map Token.lexeme) found
  rw [rows] at laid
  obtain ⟨pieces', tail', reads', quiet⟩ :=
    reads.again (fun piece member => each _ (List.mem_map_of_mem member)) fine laid
  have enough' : pieces'.length < fuel' := by
    have length := congrArg List.length quiet
    have length' := congrArg List.length found
    simp only [List.length_map] at length length'
    omega
  obtain ⟨tokens', ended', _, symbols', complains'⟩ := Lexing.all_start capacity watch' reads' enough'
  have none : endIssues false (sourceLines [stream]).2 = [] := by simp [sourceLines, fine, endIssues]
  rw [quiet, silent, none] at complains'
  rw [quiet, foldl_register_quiet] at symbols'
  refine ⟨?_, ended', symbols'.trans symbols.symm, complains'.errors, complains'.reports⟩
  rw [show again.1 = _ from tokens', tokens_of_pieces, quiet, found, List.map_map]
  rfl

/-- A comparison with a number that is cut, written out with comments and a line end between its
lexemes. -/
theorem comparison_keeps_its_tokens :
    let streams : List Stream := [{ name := [], later := [⟨"a1<=12345678".toList, 0⟩] }]
    let text := ['\x7b', 'a', '\x7d'] ++ (['a', '1'] ++ (['\n'] ++ (['<', '='] ++
      (['(', '*', '*', ')'] ++ (['1', '2', '3', '4', '5', '6'] ++ ['\r'])))))
    let stream : Stream := { name := [], ready := text, later := [] }
    let given := (Lexing.start '\'' 2 {} (.ofStreams streams)).all 20
    let again := (Lexing.start '\'' 2 { diagnostics := true } (.ofStreams [stream])).all 20
    given.2.ended = true ∧ given.2.lexicalErrors = 0 ∧ given.1.length < 20 ∧
    LaidOut true (given.1.map (·.1.lexeme)) stream.chars ∧
    again.1.map (·.1) = given.1.map (·.1) ∧ again.2.ended = true ∧
      again.2.symbols = given.2.symbols ∧ again.2.lexicalErrors = 0 ∧ again.2.journal.reports = [] := by
  intro streams text stream given again
  obtain ⟨ended, errors, short, rows⟩ : given.2.ended = true ∧ given.2.lexicalErrors = 0 ∧
      given.1.length < 20 ∧ given.1.map (·.1.lexeme) =
        [['a', '1'], ['<', '='], ['1', '2', '3', '4', '5', '6']] := by decide +kernel
  have laid : LaidOut true (given.1.map (·.1.lexeme)) stream.chars := by
    have plain : stream.chars = text := List.append_nil text
    rw [rows, plain]
    have braces : IsComment ['\x7b', 'a', '\x7d'] := @IsComment.braces ['a'] (by decide)
    have stars : IsComment ['(', '*', '*', ')'] := @IsComment.stars [] (by decide)
    have space {c : Char} (is : isSpace c = true) : IsGap [c] := .space is .nil
    exact .row (.comment braces .nil) (fun _ => rfl) (.row (space (by decide)) nofun
      (.row (.comment stars .nil) nofun (.ends (space (by decide)))))
  have fine : stream.failing = none := rfl
  clear_value streams stream
  obtain ⟨tokens, ended', symbols, errors', reports⟩ := tokens_do_not_depend_on_layout '\'' 2 {}
    { diagnostics := true } streams stream 20 20 ended errors fine laid short
  exact ⟨ended, errors, short, laid, tokens, ended', symbols, errors', reports rfl⟩

end MiniPascal
