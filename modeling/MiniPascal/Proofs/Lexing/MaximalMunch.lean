import MiniPascal.Proofs.Compiler.Acceptance
import MiniPascal.Proofs.Lexing.LongestMatch

/-! # Tokens are longest matches

The requests for a token bring, one after the other, the pieces of the only reading of the text by the
token grammar: each token with its line, and the complaints about it. The last request has no token; it
complains if the text could not be read to its end or a comment is open there.
-/

namespace MiniPascal

/-! ## Requests -/

/-- What the token of a piece is. -/
def Piece.lexeme (piece : Piece) : Lexeme := piece.cls.lexeme piece.row

/-- The tokens of some pieces, each with its line, which is one more than the line ends before it. -/
def tokenLines : (line : Nat) → List Piece → List (Lexeme × Nat)
  | _, [] => []
  | line, piece :: pieces =>
    (piece.lexeme, line + piece.gap.count '\n') :: tokenLines (line + piece.gap.count '\n') pieces

theorem length_tokenLines (line : Nat) (pieces : List Piece) :
    (tokenLines line pieces).length = pieces.length := by
  induction pieces generalizing line with
  | nil => rfl
  | cons piece pieces ih => exact congrArg (· + 1) (ih _)

theorem map_tokenLines (line : Nat) (pieces : List Piece) :
    (tokenLines line pieces).map (·.1) = pieces.map Piece.lexeme := by
  induction pieces generalizing line with
  | nil => rfl
  | cons piece pieces ih => exact congrArg (piece.lexeme :: ·) (ih _)

/-- What is complained about at the end of a text. -/
def endIssues (opened : Bool) (failure : Option Failure) : List Diagnostic :=
  failure.toList.map .unreadable ++ if opened then [.openComment] else []

/-- What a request tells: the token, its line, and the complaints. -/
structure RequestOutcome where
  lexeme : Option Lexeme
  line : Nat
  issues : List Diagnostic

def Scanned.outcome (item : Scanned) : RequestOutcome :=
  ⟨item.lexeme, item.line, item.notes.filterMap ScanNote.issue?⟩

/-- What the requests tell that find some tokens and then the end of the text. -/
def outcomes (found : List (Lexeme × Nat)) (lines : Nat) (issues : List Diagnostic) :
    List RequestOutcome :=
  found.map (fun token => ⟨some token.1, token.2, token.1.issues⟩) ++ [⟨none, lines, issues⟩]

theorem count_joinLines {lines : List (List Char)} (plain : ∀ line ∈ lines, '\n' ∉ line) :
    (joinLines lines).count '\n' = lines.length := by
  induction lines with
  | nil => rfl
  | cons line lines ih =>
    rw [List.forall_mem_cons] at plain
    have none := List.count_eq_zero_of_not_mem plain.1
    have later := ih plain.2
    unfold joinLines at *
    simp [none, later]

namespace Scan

variable {quote : Char} {failure : Option Failure} {place next : Place} {item : Scanned}

theorem Place.Plain.count_text (plain : place.Plain) :
    place.text.count '\n' = place.below.length + 1 := by
  have none := List.count_eq_zero_of_not_mem (plain place.here List.mem_cons_self)
  have later := count_joinLines fun line member => plain line (List.mem_cons_of_mem _ member)
  simp [Place.text, none, later]

/-- What one request takes from the text. -/
inductive Requests (quote : Char) (failure : Option Failure) (place : Place) :
    RequestOutcome → Place → Prop
  | ends {opened : Bool} {next : Place} (reads : Reads quote place.text [] place.text opened) :
      Requests quote failure place
        ⟨none, place.number + place.below.length, endIssues opened failure⟩ next
  | piece {piece : Piece} {next : Place} (text : place.text = piece.gap ++ (piece.row ++ next.text))
      (skips : IsGap piece.gap) (stops : ¬ StartsGap (piece.row ++ next.text))
      (munches : Munches quote (piece.row ++ next.text) piece.row piece.cls)
      (number : next.number = place.number + piece.gap.count '\n') (plain : next.Plain)
      (lines : next.number + next.below.length = place.number + place.below.length) :
      Requests quote failure place ⟨some piece.lexeme, next.number, piece.lexeme.issues⟩ next

theorem issues_endNotes (gap : Gap) (failure : Option Failure) :
    (endNotes gap failure).filterMap ScanNote.issue? = endIssues (gap ≠ .space) failure := by
  cases failure <;> cases gap <;> rfl

/-- A gap that reaches the end of the text. -/
theorem reads_end {text : List Char} {gap : Gap} (skipped : Skipped text (gap, [])) :
    Reads quote text [] text (gap ≠ .space) := by
  generalize result : (gap, ([] : List Char)) = left at skipped
  cases skipped with
  | gap front skips =>
    cases result
    rw [front, List.append_nil]
    exact .ends skips
  | opens front skips opens inside =>
    cases result
    rw [front, decide_eq_true inside]
    exact .opens skips opens

/-- A gap that something follows. -/
theorem gap_before {text rest : List Char} {gap : Gap} (skipped : Skipped text (gap, rest))
    (some : rest ≠ []) : ∃ front, text = front ++ rest ∧ IsGap front ∧ ¬ StartsGap rest := by
  cases skipped with
  | gap front skips stops => exact ⟨_, front, skips, stops⟩
  | opens => exact absurd rfl some

/-- Nothing is complained about on the way to a token but what is wrong with it. -/
theorem outcome_of_silent {notes : List ScanNote} (silent : notes.filterMap ScanNote.issue? = [])
    (found : Lexeme) (line : Nat) :
    Scanned.outcome ⟨notes ++ found.issues.map .issue, some found, line⟩ =
      ⟨some found, line, found.issues⟩ := by
  rw [Scanned.outcome, List.filterMap_append, silent, List.filterMap_map]
  exact congrArg _ List.filterMap_some

/-- The token at a place is the longest match in the text from there on. -/
theorem lexeme_munches {c : Char} {row : List Char} {number : Nat} {below : List (List Char)}
    (plain : Place.Plain ⟨c :: row, number, below⟩) :
    let next : Place := ⟨(lexeme quote c row).2, number, below⟩
    next.Plain ∧ ∃ token cls, Place.text ⟨c :: row, number, below⟩ = token ++ next.text ∧
      (lexeme quote c row).1 = cls.lexeme token ∧ Munches quote (token ++ next.text) token cls := by
  intro next
  unfold Place.Plain at *
  rw [List.forall_mem_cons] at plain ⊢
  have finds : Finds quote (c :: row) (joinLines below) _ := lexeme_finds plain.1 (joinLines below)
  obtain ⟨token, cls, split, is, munches⟩ := finds
  have text : Place.text ⟨c :: row, number, below⟩ = token ++ next.text := by
    simp only [Place.text]
    rw [split, List.append_assoc]
  refine ⟨⟨fun newline => plain.1 ?_, plain.2⟩, token, cls, text, is, text ▸ munches⟩
  rw [split]
  exact List.mem_append_right _ newline

theorem request_requests (plain : place.Plain) :
    Requests quote failure place (request quote failure place).1.outcome
      (request quote failure place).2 := by
  have passes := skipGap_passes .space place.here place.number place.below
  have skips : Skipped place.text _ := skipLine_skips .space place.text
  unfold request
  rcases skipped : skipGap .space place.here place.number place.below with
    ⟨notes, gap, rest, number, below⟩
  rw [skipped] at passes
  obtain ⟨silent, lines, clean, done, found⟩ := passes
  dsimp only at silent lines clean done found
  cases rest with
  | nil =>
    obtain ⟨rfl, used⟩ := done rfl
    rw [show skipLine .space place.text = _ from used] at skips
    have outcome : Scanned.outcome ⟨notes ++ endNotes gap failure, none, number⟩ =
        ⟨none, place.number + place.below.length, endIssues (gap ≠ .space) failure⟩ := by
      rw [Scanned.outcome, List.filterMap_append, silent, issues_endNotes, ← lines]
      rfl
    dsimp only
    rw [outcome]
    exact .ends (reads_end skips)
  | cons c row =>
    rw [show skipLine .space place.text = _ from found (List.cons_ne_nil _ _)] at skips
    obtain ⟨front, text, skips, stops⟩ := gap_before skips (List.cons_ne_nil _ _)
    obtain ⟨after, token, cls, split, is, munches⟩ := @lexeme_munches quote _ _ _ _ (clean plain)
    -- the line ends of the gap are those of the text that are not left
    have ends := plain.count_text
    rw [text, List.count_append, (clean plain).count_text] at ends
    dsimp only
    rw [outcome_of_silent silent, is]
    refine @Requests.piece _ _ _ ⟨front, token, cls⟩ _ ?_ skips ?_ munches ?_ after lines
    · rw [text, split]
    · rwa [split] at stops
    · dsimp only at ends lines ⊢
      omega

theorem itemsFrom_outcomes (plain : place.Plain) :
    ∃ pieces tail opened, Reads quote place.text pieces tail opened ∧
      (itemsFrom quote failure place).map Scanned.outcome =
        outcomes (tokenLines place.number pieces) (place.number + place.below.length)
          (endIssues opened failure) := by
  induction size : place.size using Nat.strong_induction_on generalizing place with
  | _ size ih =>
    subst size
    have requests : Requests quote failure place _ _ := request_requests plain
    have smaller := @request_size quote failure place
    rw [itemsFrom_eq]
    generalize request quote failure place = result at requests smaller ⊢
    obtain ⟨item, next⟩ := result
    dsimp only at requests smaller ⊢
    rw [List.map_cons]
    generalize outcome : item.outcome = told at requests
    cases requests with
    | ends reads =>
      have none : item.lexeme = none := congrArg RequestOutcome.lexeme outcome
      refine ⟨[], place.text, _, reads, ?_⟩
      rw [none]
      rfl
    | @piece piece next text skips stops munches number plain lines =>
      have some : item.lexeme = some piece.lexeme := congrArg RequestOutcome.lexeme outcome
      have found : item.lexeme.isSome = true := by simp [some]
      obtain ⟨pieces, tail, opened, reads, later⟩ := ih next.size (smaller found) plain rfl
      refine ⟨piece :: pieces, tail, opened, ?_, ?_⟩
      · rw [text]
        exact .piece skips stops munches reads
      · rw [if_pos found, later, lines, number]
        rfl

/-- The first line is read by the first request. -/
theorem request_start (quote : Char) (failure : Option Failure) (line : List Char)
    (below : List (List Char)) :
    (request quote failure ⟨[], 0, line :: below⟩).2 = (request quote failure ⟨line, 1, below⟩).2 ∧
      (request quote failure ⟨[], 0, line :: below⟩).1.outcome =
        (request quote failure ⟨line, 1, below⟩).1.outcome := by
  unfold request
  simp only [skipGap, skipLine]
  rcases skipGap .space line 1 below with ⟨notes, gap, _ | ⟨c, row⟩, number, below⟩ <;>
    exact ⟨rfl, rfl⟩

end Scan

theorem scan_outcomes (quote : Char) (failure : Option Failure) {lines : List (List Char)}
    (plain : ∀ line ∈ lines, '\n' ∉ line) :
    ∃ pieces tail opened, Reads quote (joinLines lines) pieces tail opened ∧
      (scan quote lines failure).map Scanned.outcome =
        outcomes (tokenLines 1 pieces) lines.length (endIssues opened failure) := by
  change ∃ pieces tail opened, _ ∧ (Scan.itemsFrom quote failure ⟨[], 0, lines⟩).map Scanned.outcome = _
  cases lines with
  | nil =>
    refine ⟨[], [], false, .ends .nil, ?_⟩
    rw [Scan.itemsFrom_eq]
    change [RequestOutcome.mk none 0 ((Scan.endNotes .space failure).filterMap ScanNote.issue?)] = _
    rw [Scan.issues_endNotes]
    rfl
  | cons line below =>
    have clean : Scan.Place.Plain ⟨line, 1, below⟩ := plain
    obtain ⟨pieces, tail, opened, reads, told⟩ := @Scan.itemsFrom_outcomes quote failure _ clean
    obtain ⟨next, outcome⟩ := Scan.request_start quote failure line below
    have found : (Scan.request quote failure ⟨[], 0, line :: below⟩).1.lexeme =
        (Scan.request quote failure ⟨line, 1, below⟩).1.lexeme := congrArg RequestOutcome.lexeme outcome
    refine ⟨pieces, tail, opened, ?_, ?_⟩
    · have text : joinLines (line :: below) = Scan.Place.text ⟨line, 1, below⟩ := by
        simp [joinLines, Scan.Place.text]
      rwa [text]
    · rw [Scan.itemsFrom_eq, List.map_cons] at told ⊢
      rw [outcome, next, found, told, List.length_cons, Nat.add_comm]

/-! ## Handing over tokens -/

/-- The diagnostic that an event reports. -/
def Event.report? : Event → Option Diagnostic
  | report diagnostic => some diagnostic
  | _ => none

/-- The diagnostics that were watched, in order. -/
def Journal.reports (journal : Journal) : List Diagnostic := journal.toList.filterMap Event.report?

/-- The table after a token was handed over. -/
def Lexeme.register (symbols : SymbolTable) (found : Lexeme) : SymbolTable :=
  found.registration.elim symbols fun registration =>
    (symbols.add found.token.text registration.usage registration.value).2

/-- The complaint that the table has no room for the symbol of a token. -/
def Lexeme.refusal (symbols : SymbolTable) (found : Lexeme) : List Diagnostic :=
  found.registration.elim [] fun registration =>
    if (symbols.add found.token.text registration.usage registration.value).1.isSome then []
    else [.noRoomFor found.token.text]

/-- What is complained about while some tokens are handed over. -/
def complaints : SymbolTable → List Lexeme → List Diagnostic
  | _, [] => []
  | symbols, found :: more =>
    found.issues ++ found.refusal symbols ++ complaints (found.register symbols) more

namespace Lexing

/-- Some complaints are made. -/
structure Complains (lexing : Lexing) (issues : List Diagnostic) (after : Lexing) : Prop where
  errors : after.lexicalErrors = lexing.lexicalErrors + issues.countP (·.level = .error)
  watch : after.journal.watch = lexing.journal.watch
  reports : lexing.journal.watch.diagnostics = true →
    after.journal.reports = lexing.journal.reports ++ issues

namespace Complains

variable {lexing middle after : Lexing} {issues more : List Diagnostic}

theorem trans (first : Complains lexing issues middle) (second : Complains middle more after) :
    Complains lexing (issues ++ more) after := by
  refine ⟨?_, second.watch.trans first.watch, fun watched => ?_⟩
  · rw [second.errors, first.errors, List.countP_append, Nat.add_assoc]
  · rw [second.reports (first.watch ▸ watched), first.reports watched, List.append_assoc]

/-- An event that reports nothing. -/
theorem note {event : Event} (silent : event.report? = none) (lexing : Lexing) :
    Complains lexing [] { lexing with journal := lexing.journal.note event } := by
  refine ⟨rfl, Journal.watch_note _ _, fun _ => ?_⟩
  rw [List.append_nil]
  dsimp only [Journal.reports]
  cases shown : lexing.journal.watch.shows event with
  | true => rw [Journal.toList_note_of_shows shown]; simp [silent]
  | false => rw [Journal.note_of_not_shows shown]

theorem report (lexing : Lexing) (diagnostic : Diagnostic) :
    Complains lexing [diagnostic] (lexing.report diagnostic) := by
  refine ⟨?_, Journal.watch_note _ _, fun watched => ?_⟩
  · simp [Lexing.report, List.countP_cons]
  · have shown : lexing.journal.watch.shows (.report diagnostic) = true := watched
    dsimp only [Journal.reports, Lexing.report]
    rw [Journal.toList_note_of_shows shown, List.filterMap_append]
    rfl

theorem observe (notes : List ScanNote) (lexing : Lexing) :
    Complains lexing (notes.filterMap ScanNote.issue?) (notes.foldl observe lexing) := by
  induction notes generalizing lexing with
  | nil => exact ⟨rfl, rfl, fun _ => (List.append_nil _).symm⟩
  | cons first notes ih =>
    cases first with
    | line number text => exact (note rfl lexing).trans (ih _)
    | issue diagnostic => exact (report lexing diagnostic).trans (ih _)

end Complains

/-- What handing over a token does. -/
theorem handOver_spec (lexing : Lexing) (found : Lexeme) :
    (lexing.handOver found).unread = lexing.unread ∧ (lexing.handOver found).line = lexing.line ∧
      (lexing.handOver found).symbols = found.register lexing.symbols ∧
      Complains lexing (found.refusal lexing.symbols) (lexing.handOver found) := by
  have shown (lexing : Lexing) : Complains lexing []
      { lexing with journal := lexing.journal.note (.token found.token) } := .note rfl lexing
  unfold handOver Lexeme.register Lexeme.refusal
  cases found.registration with
  | none => exact ⟨rfl, rfl, rfl, shown lexing⟩
  | some registration =>
    dsimp only [register, Option.elim_some]
    obtain ⟨i, _, added⟩ | ⟨_, _, added⟩ | ⟨_, _, added⟩ :=
      lexing.symbols.add_cases found.token.text registration.usage registration.value
    all_goals rw [added]
    · exact ⟨rfl, rfl, rfl, shown lexing⟩
    · exact ⟨rfl, rfl, rfl, (Complains.report lexing _).trans (shown _)⟩
    · refine ⟨rfl, rfl, rfl, ?_⟩
      obtain ⟨errors, watch, reports⟩ := shown { lexing with symbols := lexing.symbols.insert _ }
      exact ⟨errors, watch, reports⟩

theorem foldl_observe_line (notes : List ScanNote) (lexing : Lexing) :
    (notes.foldl observe lexing).line = lexing.line := by
  induction notes generalizing lexing with
  | nil => rfl
  | cons note notes ih =>
    rw [List.foldl_cons, ih]
    cases note <;> rfl

/-- What one request does, by what it tells. -/
theorem next_spec {lexing : Lexing} {told : RequestOutcome} {later : List RequestOutcome}
    (unread : lexing.unread.map Scanned.outcome = told :: later) :
    lexing.next.1 = told.lexeme.map (·.token) ∧
      lexing.next.2.unread.map Scanned.outcome = later ∧ lexing.next.2.line = told.line ∧
      lexing.next.2.symbols = told.lexeme.elim lexing.symbols (·.register lexing.symbols) ∧
      Complains lexing (told.issues ++ told.lexeme.elim [] (·.refusal lexing.symbols))
        lexing.next.2 := by
  obtain ⟨item, items, more, rfl, rfl⟩ := List.map_eq_cons_iff.mp unread
  have taken := Complains.observe item.notes { lexing with unread := items, line := item.line }
  have keeps := foldl_observe_keeps item.notes { lexing with unread := items, line := item.line }
  have line := foldl_observe_line item.notes { lexing with unread := items, line := item.line }
  unfold next
  rw [more]
  dsimp only
  generalize item.notes.foldl observe { lexing with unread := items, line := item.line } = seen at *
  have complains : Complains lexing item.outcome.issues seen :=
    ⟨taken.errors, taken.watch, taken.reports⟩
  dsimp only at keeps line
  dsimp only [Scanned.outcome]
  cases item.lexeme with
  | none =>
    refine ⟨rfl, by rw [keeps.1], line, keeps.2, ?_⟩
    rw [Option.elim_none, List.append_nil]
    exact complains
  | some found =>
    obtain ⟨unread, same, symbols, refuses⟩ := seen.handOver_spec found
    rw [keeps.2] at symbols refuses
    refine ⟨rfl, by rw [unread, keeps.1], same.trans line, symbols, complains.trans refuses⟩

/-- What all requests do, by what they tell. -/
theorem all_spec {lexing : Lexing} {found : List (Lexeme × Nat)} {lines : Nat}
    {issues : List Diagnostic}
    (unread : lexing.unread.map Scanned.outcome = outcomes found lines issues) {fuel : Nat}
    (enough : found.length < fuel) :
    (lexing.all fuel).1 = found.map (fun token => (token.1.token, token.2)) ∧
      (lexing.all fuel).2.unread = [] ∧ (lexing.all fuel).2.line = lines ∧
      (lexing.all fuel).2.symbols = (found.map (·.1)).foldl Lexeme.register lexing.symbols ∧
      Complains lexing (complaints lexing.symbols (found.map (·.1)) ++ issues)
        (lexing.all fuel).2 := by
  obtain ⟨fuel, rfl⟩ := Nat.exists_eq_add_one_of_ne_zero (Nat.ne_zero_of_lt enough)
  induction found generalizing lexing fuel with
  | nil =>
    obtain ⟨none, used, line, symbols, complains⟩ := next_spec unread
    unfold all
    generalize lexing.next = result at *
    obtain ⟨token, after⟩ := result
    obtain rfl : token = _ := none
    exact ⟨rfl, List.map_eq_nil_iff.mp used, line, symbols, by simpa [complaints] using complains⟩
  | cons first found ih =>
    have enough := Nat.lt_of_succ_lt_succ enough
    obtain ⟨fuel, rfl⟩ := Nat.exists_eq_add_one_of_ne_zero (Nat.ne_zero_of_lt enough)
    obtain ⟨some, more, line, symbols, complains⟩ := next_spec unread
    unfold all
    generalize lexing.next = result at *
    obtain ⟨token, after⟩ := result
    obtain rfl : token = _ := some
    obtain ⟨tokens, used, lines, cells, later⟩ := ih more fuel enough
    dsimp only [Option.elim_some] at line symbols complains
    rw [symbols] at cells later
    refine ⟨?_, used, lines, cells, ?_⟩
    · rw [List.map_cons, ← tokens, ← line]
      rfl
    · have both := complains.trans later
      rwa [← List.append_assoc] at both

theorem start_outcomes (quote : Char) (capacity : Nat) (watch : Watch) (streams : List Stream) :
    ∃ pieces tail opened, Reads quote (joinLines (sourceLines streams).1) pieces tail opened ∧
      (start quote capacity watch (.ofStreams streams)).unread.map Scanned.outcome =
        outcomes (tokenLines 1 pieces) (sourceLines streams).1.length
          (endIssues opened (sourceLines streams).2) := by
  unfold start
  rw [Input.lines_ofStreams]
  exact scan_outcomes quote (sourceLines streams).2 (sourceLines_plain streams)

section Requests

variable {quote : Char} {streams : List Stream} {pieces : List Piece} {tail : List Char} {opened : Bool}
  {fuel : Nat} (capacity : Nat) (watch : Watch)
  (reads : Reads quote (joinLines (sourceLines streams).1) pieces tail opened)

include reads

/-- The requests bring the pieces of a reading of the text. -/
theorem unread_start :
    (start quote capacity watch (.ofStreams streams)).unread.map Scanned.outcome =
      outcomes (tokenLines 1 pieces) (sourceLines streams).1.length
        (endIssues opened (sourceLines streams).2) := by
  obtain ⟨_, _, _, reads', told⟩ := start_outcomes quote capacity watch streams
  obtain ⟨rfl, _, rfl⟩ := reads.unique reads'
  exact told

theorem all_start (enough : pieces.length < fuel) :
    let all := (start quote capacity watch (.ofStreams streams)).all fuel
    all.1 = (tokenLines 1 pieces).map (fun found => (found.1.token, found.2)) ∧
      all.2.ended = true ∧ all.2.line = (sourceLines streams).1.length ∧
      all.2.symbols = (pieces.map Piece.lexeme).foldl Lexeme.register (.empty capacity) ∧
      Complains (start quote capacity watch (.ofStreams streams))
        (complaints (.empty capacity) (pieces.map Piece.lexeme) ++
          endIssues opened (sourceLines streams).2) all.2 := by
  rw [← length_tokenLines 1] at enough
  obtain ⟨tokens, used, line, symbols, complains⟩ :=
    all_spec (unread_start capacity watch reads) enough
  rw [map_tokenLines] at symbols complains
  exact ⟨tokens, List.isEmpty_iff.mpr used, line, symbols, complains⟩

end Requests

end Lexing

theorem register_size (symbols : SymbolTable) (found : Lexeme) :
    (found.register symbols).capacity = symbols.capacity ∧
      symbols.size ≤ (found.register symbols).size := by
  unfold Lexeme.register
  cases found.registration with
  | none => exact ⟨rfl, Nat.le_refl _⟩
  | some registration =>
    obtain ⟨i, _, added⟩ | ⟨_, _, added⟩ | ⟨_, _, added⟩ :=
      symbols.add_cases found.token.text registration.usage registration.value
    all_goals rw [Option.elim_some, added]
    · exact ⟨rfl, Nat.le_refl _⟩
    · exact ⟨rfl, Nat.le_refl _⟩
    · exact ⟨rfl, by simp [SymbolTable.insert, SymbolTable.size]⟩

theorem foldl_register_size (found : List Lexeme) (symbols : SymbolTable) :
    symbols.size ≤ (found.foldl Lexeme.register symbols).size := by
  induction found generalizing symbols with
  | nil => exact Nat.le_refl _
  | cons first found ih => exact (register_size symbols first).2.trans (ih (first.register symbols))

/-- No symbol is refused while there is room. -/
theorem complaints_of_room {found : List Lexeme} {symbols : SymbolTable}
    (room : (found.foldl Lexeme.register symbols).size < symbols.capacity) :
    complaints symbols found = found.flatMap (·.issues) := by
  induction found generalizing symbols with
  | nil => rfl
  | cons first found ih =>
    have before := Nat.lt_of_le_of_lt (foldl_register_size (first :: found) symbols) room
    have accepted : first.refusal symbols = [] := by
      unfold Lexeme.refusal
      cases first.registration with
      | none => rfl
      | some registration =>
        obtain ⟨i, _, added⟩ | ⟨_, full, _⟩ | ⟨_, _, added⟩ :=
          symbols.add_cases first.token.text registration.usage registration.value
        · simp [added]
        · omega
        · simp [added]
    rw [complaints, accepted, List.append_nil, List.flatMap_cons, ih]
    rw [(register_size symbols first).1]
    exact room

theorem Reads.text_eq {quote : Char} {text tail : List Char} {pieces : List Piece} {opened : Bool}
    (reads : Reads quote text pieces tail opened) :
    text = pieces.flatMap (fun piece => piece.gap ++ piece.row) ++ tail := by
  induction reads with
  | ends | opens => rfl
  | piece _ _ _ _ ih => simp [← ih]

/-- A token does not span lines. -/
theorem Reads.row_plain {quote : Char} {text tail : List Char} {pieces : List Piece} {opened : Bool}
    (reads : Reads quote text pieces tail opened) : ∀ piece ∈ pieces, '\n' ∉ piece.row := by
  induction reads with
  | ends | opens => exact nofun
  | @piece piece after _ _ _ _ stops munches _ ih =>
    refine List.forall_mem_cons.mpr ⟨munches.is.line fun c head newline => stops ?_, ih⟩
    obtain ⟨rest, row⟩ := List.head?_eq_some_iff.mp head
    rw [row, newline]
    exact .space (by decide)

theorem Reads.length_le {quote : Char} {text tail : List Char} {pieces : List Piece} {opened : Bool}
    (reads : Reads quote text pieces tail opened) : pieces.length ≤ text.length := by
  induction reads with
  | ends | opens => exact Nat.zero_le _
  | piece _ _ munches _ ih =>
    have taken := List.length_pos_of_ne_nil munches.is.ne_nil
    simp only [List.length_cons, List.length_append]
    omega

/-- There is one reading of the text by the token grammar, and requests bring its tokens with their
lines, and its complaints as long as the table has room. -/
theorem tokens_are_longest_matches (quote : Char) (capacity : Nat) (watch : Watch)
    (streams : List Stream) :
    let lines := (sourceLines streams).1
    let failure := (sourceLines streams).2
    ∃ pieces tail opened,
      (∀ pieces' tail' opened', Reads quote (joinLines lines) pieces' tail' opened' ↔
        pieces' = pieces ∧ tail' = tail ∧ opened' = opened) ∧
      joinLines lines = pieces.flatMap (fun piece => piece.gap ++ piece.row) ++ tail ∧
      (∀ piece ∈ pieces, '\n' ∉ piece.row) ∧
      ∀ fuel, pieces.length < fuel →
        let start := Lexing.start quote capacity watch (.ofStreams streams)
        let last := (start.all fuel).2
        let issues := pieces.flatMap (·.lexeme.issues) ++ endIssues opened failure
        (start.all fuel).1 =
          (tokenLines 1 pieces).map (fun found => (found.1.token, found.2)) ∧
        last.ended = true ∧ last.line = lines.length ∧
        (last.symbols.size < capacity →
          last.lexicalErrors = issues.countP (·.level = .error) ∧
          (watch.diagnostics = true → last.journal.reports = issues)) := by
  intro lines failure
  obtain ⟨pieces, tail, opened, reads, _⟩ := Lexing.start_outcomes quote capacity watch streams
  refine ⟨pieces, tail, opened, fun pieces' tail' opened' => ⟨fun reads' => reads'.unique reads, ?_⟩,
    reads.text_eq, reads.row_plain, fun fuel enough => ?_⟩
  · rintro ⟨rfl, rfl, rfl⟩
    exact reads
  intro start last issues
  obtain ⟨tokens, ended, line, symbols, complains⟩ := Lexing.all_start capacity watch reads enough
  refine ⟨tokens, ended, line, fun room => ?_⟩
  have silent : complaints (.empty capacity) _ = _ := complaints_of_room (symbols ▸ room)
  rw [silent, List.flatMap_map] at complains
  exact ⟨complains.errors.trans (Nat.zero_add _), complains.reports⟩

/-- A comment over two lines, a number that is cut, an operator before an unknown character, a text and
a comment that are not closed. -/
theorem cut_number_is_the_longest_match :
    let text := "if (* a\nb *) x>=1234567.E+1$ 'q\n\x7b".toList
    let streams : List Stream := [{ name := [], later := [⟨text, 0⟩] }]
    let start := Lexing.start '\'' 3 { diagnostics := true } (.ofStreams streams)
    let last := (start.all 50).2
    last.symbols.size < 3 ∧
    ∃ pieces tail opened, pieces.length < 50 ∧
      Reads '\'' (joinLines (sourceLines streams).1) pieces tail opened ∧
      (start.all 50).1 = (tokenLines 1 pieces).map (fun found => (found.1.token, found.2)) ∧
      last.journal.reports =
        pieces.flatMap (·.lexeme.issues) ++ endIssues opened (sourceLines streams).2 := by
  intro text streams start last
  obtain ⟨room, short⟩ : last.symbols.size < 3 ∧ (joinLines (sourceLines streams).1).length < 50 := by
    decide +kernel
  obtain ⟨pieces, tail, opened, only, _, _, calls⟩ :=
    tokens_are_longest_matches '\'' 3 { diagnostics := true } streams
  have reads := (only pieces tail opened).mpr ⟨rfl, rfl, rfl⟩
  have enough : pieces.length < 50 := Nat.lt_of_le_of_lt reads.length_le short
  obtain ⟨tokens, _, _, complains⟩ := calls 50 enough
  clear_value streams
  obtain ⟨_, reports⟩ := complains room
  exact ⟨room, pieces, tail, opened, enough, reads, tokens, reports rfl⟩

/-- A digit as the quote opens no text, though the text is longer than the number. A quote that is not
closed takes the rest of its line. -/
theorem quotes_depart_from_texts :
    (∃ inner, "1 2 1".toList = '1' :: inner ++ ['1'] ∧ '1' ∉ inner ∧ '\n' ∉ inner) ∧
    ((Lexing.start '1' 3 {} (.ofString "1 2 1")).all 4).1 =
      [(⟨['1'], .integerLiteral⟩, 1), (⟨['2'], .integerLiteral⟩, 1), (⟨['1'], .integerLiteral⟩, 1)] ∧
    (¬ ∃ inner rest, "'ab".toList = '\'' :: inner ++ '\'' :: rest) ∧
    ((Lexing.start '\'' 3 {} (.ofString "'ab")).all 4).1 = [(⟨"'ab".toList, .unknown⟩, 1)] := by
  refine ⟨⟨" 2 ".toList, by decide⟩, by decide +kernel, ?_, by decide +kernel⟩
  rintro ⟨inner, rest, same⟩
  have quoted : '\'' ∈ "ab".toList := by
    rw [show "ab".toList = inner ++ '\'' :: rest from (List.cons.inj same).2]
    exact List.mem_append_right _ List.mem_cons_self
  exact absurd quoted (by decide)

end MiniPascal
