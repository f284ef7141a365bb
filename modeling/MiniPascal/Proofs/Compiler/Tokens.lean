import MiniPascal.Compiler.Program
import MiniPascal.Proofs.Tables

/-! # The tokens ahead of a compilation

A session looks at one token and has the scanned items of the others still unread. `ahead` is the
list of all tokens from the current one on, up to the end of the input. Moving on by one token takes
one item, counts the errors noted on the way, and may give the token's name a cell.
-/

namespace MiniPascal

/-- Whether a note reports an error. -/
def ScanNote.isError : ScanNote → Bool
  | issue diagnostic => diagnostic.level = .error
  | line .. => false

namespace Scanned

/-- The token of an item; the last item stands for the end of the input. -/
def token (item : Scanned) : Token := (item.lexeme.map (·.token)).getD .endOfInput

/-- How many errors were noted on the way to a token. -/
def errors (item : Scanned) : Nat := item.notes.countP ScanNote.isError

/-- The symbol that an item registers, under its name. -/
def cell? (item : Scanned) : Option Cell :=
  item.lexeme.bind fun found => found.registration.map fun registration =>
    ⟨found.token.text, registration.usage, registration.value⟩

end Scanned

/-- The tokens of some items, up to the end of the input. -/
def tokensOf (items : List Scanned) : List Token :=
  (items.map Scanned.token).takeWhile fun token => token.kind ≠ .endOfInput

/-- The errors noted in some items. -/
def errorsIn (items : List Scanned) : Nat := (items.flatMap (·.notes)).countP ScanNote.isError

@[simp] theorem errorsIn_nil : errorsIn [] = 0 := rfl

@[simp] theorem errorsIn_cons (item : Scanned) (items : List Scanned) :
    errorsIn (item :: items) = item.errors + errorsIn items := by
  simp [errorsIn, Scanned.errors]

theorem errorsIn_append (first second : List Scanned) :
    errorsIn (first ++ second) = errorsIn first + errorsIn second := by
  simp [errorsIn]

namespace Lexing

private theorem observe_keeps (lexing : Lexing) (note : ScanNote) :
    (lexing.observe note).unread = lexing.unread ∧ (lexing.observe note).symbols = lexing.symbols := by
  cases note <;> exact ⟨rfl, rfl⟩

theorem foldl_observe_keeps (notes : List ScanNote) (lexing : Lexing) :
    (notes.foldl observe lexing).unread = lexing.unread ∧
      (notes.foldl observe lexing).symbols = lexing.symbols := by
  induction notes generalizing lexing with
  | nil => exact ⟨rfl, rfl⟩
  | cons note notes ih =>
    obtain ⟨unread, symbols⟩ := ih (lexing.observe note)
    obtain ⟨unread', symbols'⟩ := observe_keeps lexing note
    exact ⟨unread.trans unread', symbols.trans symbols'⟩

theorem foldl_observe_errors (notes : List ScanNote) (lexing : Lexing) :
    (notes.foldl observe lexing).lexicalErrors =
      lexing.lexicalErrors + notes.countP ScanNote.isError := by
  induction notes generalizing lexing with
  | nil => rfl
  | cons note notes ih =>
    rw [List.foldl_cons, ih, List.countP_cons]
    cases note with
    | line number text => rfl
    | issue diagnostic =>
      simp only [observe, report, ScanNote.isError, decide_eq_true_eq]
      omega

/-- Whether a registration is refused, because its name is new and the table is full. -/
def refuses (lexing : Lexing) (item : Scanned) : Bool :=
  match item.cell? with
  | some cell => (lexing.symbols.add cell.name cell.usage cell.value).1.isNone
  | none => false

theorem next_nil {lexing : Lexing} (used : lexing.unread = []) : lexing.next = (none, lexing) := by
  simp [next, used]

/-- What one request for a token does. -/
theorem next_cons {lexing : Lexing} {item : Scanned} {items : List Scanned}
    (more : lexing.unread = item :: items) :
    lexing.next.1.getD .endOfInput = item.token ∧
    lexing.next.2.unread = items ∧
    lexing.next.2.symbols = (match item.cell? with
      | some cell => (lexing.symbols.add cell.name cell.usage cell.value).2
      | none => lexing.symbols) ∧
    lexing.next.2.lexicalErrors =
      lexing.lexicalErrors + item.errors + if lexing.refuses item then 1 else 0 := by
  have keeps := foldl_observe_keeps item.notes { lexing with unread := items, line := item.line }
  have errors : _ = lexing.lexicalErrors + item.errors :=
    foldl_observe_errors item.notes { lexing with unread := items, line := item.line }
  unfold next refuses Scanned.token Scanned.cell?
  rw [more]
  dsimp only
  generalize item.notes.foldl observe { lexing with unread := items, line := item.line } = seen at *
  obtain ⟨unread, symbols⟩ := keeps
  cases lexeme : item.lexeme with
  | none => simpa [unread, symbols] using errors
  | some found =>
    cases registered : found.registration with
    | none => simpa [handOver, registered, unread, symbols] using errors
    | some registration =>
      obtain ⟨i, here, added⟩ | ⟨new, full, added⟩ | ⟨new, room, added⟩ :=
          lexing.symbols.add_cases found.token.text registration.usage registration.value
      all_goals
        simp only at symbols
        simp [handOver, registered, register, symbols, added, unread, report, Diagnostic.level]
        exact errors

end Lexing

namespace Session

/-- The tokens from the current one on, up to the end of the input. -/
def ahead (s : Session) : List Token :=
  (s.look :: s.unread.map Scanned.token).takeWhile fun token => token.kind ≠ .endOfInput

/-- The quads written so far. -/
abbrev code (s : Session) : List Quad := s.quads.code

theorem ahead_of_more {s : Session} (more : s.look.kind ≠ .endOfInput) :
    s.ahead = s.look :: tokensOf s.unread := by
  simp [ahead, tokensOf, more]

theorem ahead_of_end {s : Session} (ended : s.look.kind = .endOfInput) : s.ahead = [] := by
  simp [ahead, ended]

@[simp] theorem quads_advance (s : Session) : s.advance.quads = s.quads := rfl

theorem code_advance (s : Session) : s.advance.code = s.code := rfl

@[simp] theorem temporaries_advance (s : Session) : s.advance.temporaries = s.temporaries := rfl

theorem unread_advance (s : Session) : s.advance.unread = s.unread.drop 1 := by
  unfold advance
  cases unread : s.unread with
  | nil => simp [Lexing.next_nil unread, unread]
  | cons item items => simpa using (Lexing.next_cons unread).2.1

theorem ahead_advance (s : Session) : s.advance.ahead = tokensOf s.unread := by
  unfold advance
  cases unread : s.unread with
  | nil => simp [Lexing.next_nil unread, ahead, tokensOf, Token.endOfInput]
  | cons item items =>
    obtain ⟨token, rest, _⟩ := Lexing.next_cons unread
    simp [ahead, tokensOf, token, rest]

/-- Moving on drops the current token. -/
theorem ahead_eq_cons {s : Session} (more : s.look.kind ≠ .endOfInput) :
    s.ahead = s.look :: s.advance.ahead := by
  rw [ahead_of_more more, ahead_advance]

theorem length_ahead_le (s : Session) : s.ahead.length ≤ s.unread.length + 1 := by
  have := ((s.look :: s.unread.map Scanned.token).takeWhile_sublist
    fun token => token.kind ≠ .endOfInput).length_le
  simpa [ahead] using this

/-- The first token ahead is the current one. -/
theorem look_of_ahead {s : Session} {token : Token} {rest : List Token}
    (tokens : s.ahead = token :: rest) : s.look = token ∧ token.kind ≠ .endOfInput := by
  by_cases ended : s.look.kind = .endOfInput
  · rw [ahead_of_end ended] at tokens
    cases tokens
  · rw [ahead_of_more ended] at tokens
    cases tokens
    exact ⟨rfl, ended⟩

theorem advance_of_ahead {s : Session} {token : Token} {rest : List Token}
    (tokens : s.ahead = token :: rest) : s.advance.ahead = rest := by
  obtain ⟨here, more⟩ := look_of_ahead tokens
  subst here
  rw [ahead_eq_cons more] at tokens
  exact (List.cons.inj tokens).2

end Session

end MiniPascal
