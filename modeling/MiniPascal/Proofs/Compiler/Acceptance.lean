import MiniPascal.Proofs.Compiler.CompilingPrograms

/-! # Which texts are accepted

A compilation is the rule for programs, run from the first token on. What it accepts are the programs
of the grammar, and its code is then the code of the program that was read.
-/

namespace MiniPascal

open Session Rule

/-- The items of a program text, as the scanner finds them. -/
def scanned (options : CompileOptions) (input : Input) : List Scanned :=
  (Session.start options input).unread

/-- The session that looks at the first token. -/
abbrev firstSession (options : CompileOptions) (input : Input) : Session :=
  (Session.start options input).advance

variable (options : CompileOptions) (input : Input)

theorem scanned_proper : ∀ item ∈ scanned options input, ∀ found, item.lexeme = some found →
    found.Proper options.quote :=
  Scan.items_proper _ _ _ _

theorem scanned_words : ∀ item ∈ scanned options input,
    item.token.kind = .identifier → item.token.text.IsWord := by
  intro item member is
  cases lexeme : item.lexeme with
  | none =>
    rw [Scanned.token, lexeme] at is
    cases is
  | some found =>
    have proper := scanned_proper options input item member found lexeme
    rw [Scanned.token, lexeme] at is ⊢
    obtain ⟨registration, registers⟩ := proper.exists_registration (by rw [show found.token.kind = _ from is]; rfl)
    exact proper.isWord registers is

theorem start_orderly :
    (Session.start options input).Orderly options.quote (scanned options input) {} := by
  have valid : (Session.start options input).Valid :=
    ⟨SymbolTable.wellFormed_empty _, Nat.zero_le _, nofun, scanned_words options input⟩
  refine ⟨scanned_proper options input, [], rfl, valid, fun more => absurd rfl more,
    (fun _ member => nomatch member), fun i cell here => ?_, nofun, (fun _ member => nomatch member),
    fun n _ => ?_⟩
  · simp [Session.start, Lexing.start, SymbolTable.empty] at here
  · cases found : (Session.start options input).symbols.lookup? (temporaryName n) with
    | none => rfl
    | some i => exact absurd (valid.symbols.lookup_lt found) (Nat.not_lt_zero i)

theorem firstSession_orderly :
    (firstSession options input).Orderly options.quote (scanned options input) {} :=
  (start_orderly options input).advance

theorem ahead_firstSession :
    (firstSession options input).ahead = tokensOf (scanned options input) :=
  ahead_advance _

/-! ## What a compilation leaves behind -/

variable {options input} in
theorem tables_of_ok {t : Session} (ran : Rule.program (firstSession options input) = .ok () t) :
    (compile options input).program = ⟨t.symbols, t.quads⟩ := by
  unfold compile
  rw [show Rule.program (Session.start options input).advance = _ from ran]
  rfl

variable {options input} in
theorem tables_of_error {abort : Abort} {t : Session}
    (ran : Rule.program (firstSession options input) = .error abort t) :
    (compile options input).program = ⟨t.symbols, t.quads⟩ := by
  unfold compile
  rw [show Rule.program (Session.start options input).advance = _ from ran]
  cases abort <;> rfl

/-- Whatever comes of a compilation, its tables are those of a session that is reached by moves. -/
theorem compile_moves : ∃ t, Moves True (firstSession options input) t ∧
    (compile options input).program = ⟨t.symbols, t.quads⟩ := by
  have leads := program_does _ (firstSession_orderly options input).valid
  cases ran : Rule.program (firstSession options input) with
  | ok _ t => exact ⟨t, (Leads.ok leads ran).1, tables_of_ok ran⟩
  | error abort t => exact ⟨t, (Leads.error leads ran).1, tables_of_error ran⟩

theorem finish_accepted {t : Session} : t.finish.verdict = .accepted ↔ t.Clean := by
  unfold Session.finish Clean
  dsimp only
  split
  · simp only [true_iff]
    omega
  · simp only [reduceCtorEq, false_iff]
    omega

/-- An accepted text was read to the end of a program, without an error. -/
theorem accepted_iff : (compile options input).verdict = .accepted ↔
    ∃ t, Rule.program (firstSession options input) = .ok () t ∧ t.Clean := by
  have leads := program_does _ (firstSession_orderly options input).valid
  unfold compile
  cases ran : Rule.program (firstSession options input) with
  | ok _ t =>
    simp [finish_accepted]
  | error abort t =>
    have reported := (Leads.error leads ran).2
    cases abort with
    | gaveUp =>
      have unclean : ¬ t.Clean := fun clean => reported clean.1
      simp [finish_accepted, unclean]
    | crashed | outOfFuel => simp

variable {options input}

/-- The code of a program that was read, with the symbols it refers to. -/
structure Built (options : CompileOptions) (input : Input) (p : Syntax.Program) (rest : List Token)
    (t : Session) : Prop where
  spelled : p.Spelled True (tokensOf (scanned options input)) rest
  allowed : ∀ name ∈ p.body.names, p.scope.Allows name
  ahead : t.ahead = rest
  tables : (compile options input).program = ⟨t.symbols, t.quads⟩
  orderly : t.Orderly options.quote (scanned options input) p.scope
  moves : Moves True (firstSession options input) t
  code : ∃ code, t.code = code ++ [⟨.stop, 0, 0, 0⟩] ∧
    p.body.Laid t.symbols 0 t.temporaries 0 code

/-- An accepted text spells a program, and its code is the code of any program that it spells. -/
theorem built_of_accepted (accepted : (compile options input).verdict = .accepted) :
    (∃ p rest, Syntax.Program.Spelled True p (tokensOf (scanned options input)) rest) ∧
      ∀ p rest, Syntax.Program.Spelled True p (tokensOf (scanned options input)) rest →
        ∃ t, Built options input p rest t ∧ t.Clean := by
  obtain ⟨t, ran, clean⟩ := (accepted_iff options input).mp accepted
  have orderly := firstSession_orderly options input
  obtain ⟨moves, read⟩ := Leads.ok (program_does _ orderly.valid) ran
  obtain ⟨q, spelled', usable, books⟩ := read clean
  rw [ahead_firstSession] at spelled'
  refine ⟨⟨q, t.ahead, spelled'⟩, fun p rest spelled => ?_⟩
  obtain ⟨name, declarations, names, _⟩ := spelled.unique spelled'
  have scope : q.scope = p.scope := by
    unfold Syntax.Program.scope
    rw [name, declarations]
  have orderly' := books _ _ orderly
  rw [scope] at orderly'
  have allowed : ∀ name ∈ p.body.names, p.scope.Allows name := by
    intro name used program undeclared
    obtain ⟨i, cell, found, stored, other⟩ := usable name (names ▸ used)
    exact other ((orderly'.usage found stored).mpr ⟨program, undeclared⟩)
  obtain ⟨_, _, ahead, code, written, laid⟩ := Leads.ok
    (program_progresses spelled allowed (ahead_firstSession options input) _ _ orderly) ran
  exact ⟨t, ⟨spelled, allowed, ahead, tables_of_ok ran, orderly', moves, code, written, laid⟩, clean⟩

/-! ## The texts that are accepted -/

/-- The errors noted up to and including the token after those that were read. -/
theorem lexicalErrors_read {t : Session} (moves : Moves True (firstSession options input) t)
    (some : tokensOf (scanned options input) ≠ []) {n : Nat}
    (read : n = (tokensOf (scanned options input)).length - t.ahead.length) :
    errorsIn ((scanned options input).take (n + 1)) ≤ t.lexicalErrors ∧
      (t.lexicalErrors = errorsIn ((scanned options input).take (n + 1)) ∨ t.NoCells) := by
  have valid := (firstSession_orderly options input).valid
  obtain ⟨m, consumed⟩ := moves.consumes valid
  have length := congrArg List.length consumed.ahead
  have bound := consumed.bound
  rw [List.length_drop] at length
  rw [ahead_firstSession] at length bound
  obtain rfl : n = m := by omega
  cases items : scanned options input with
  | nil => simp [items, tokensOf] at some
  | cons item rest =>
    have unread : (firstSession options input).unread = rest := by
      rw [unread_advance, show (Session.start options input).unread = _ from items]
      rfl
    obtain ⟨le, eq⟩ : 0 + item.errors ≤ (firstSession options input).lexicalErrors ∧
        ((firstSession options input).lexicalErrors = 0 + item.errors ∨
          (Session.start options input).NoCells) := lexicalErrors_advance items
    have errors_le := consumed.errors_le
    have errors_eq := consumed.errors_eq
    rw [unread] at errors_le errors_eq
    rw [List.take_succ_cons, errorsIn_cons]
    refine ⟨by omega, ?_⟩
    obtain here | full := eq
    · exact errors_eq.imp_left fun there => by omega
    · exact .inr (moves.noCells valid (NoCells.advance full))

/-- A program stands at the front of the items, and `rest` follows it: no `IF` needs to be the nearest to
its `ELSE`, the name of the program is used as a variable only if it is declared as one, and no error
is noted up to the token after the program. -/
structure Sentence (items : List Scanned) (p : Syntax.Program) (rest : List Token) : Prop where
  spelled : p.Spelled False (tokensOf items) rest
  named : ∀ name ∈ p.body.names, p.name.SameName name → p.Declares name
  errors : errorsIn (items.take ((tokensOf items).length - rest.length + 1)) = 0

theorem Syntax.Program.allows_iff (p : Syntax.Program) (name : Text) :
    p.scope.Allows name ↔ (p.name.SameName name → p.Declares name) := by
  unfold Scope.Allows Syntax.Program.Declares
  rw [Ne, Scope.kind?_eq_none]
  simp [Scope.isProgram, Syntax.Program.scope]

/-- Both tables could take more. -/
def Program.HasRoom (program : Program) : Prop :=
  program.symbols.size < program.symbols.capacity ∧ program.quads.size < program.quads.capacity

theorem sentence_of_accepted (accepted : (compile options input).verdict = .accepted) :
    ∃ p rest, Sentence (scanned options input) p rest := by
  obtain ⟨⟨p, rest, spelled⟩, built⟩ := built_of_accepted accepted
  obtain ⟨t, built, clean⟩ := built p rest spelled
  refine ⟨p, rest, built.spelled.relax, fun name used => ?_, ?_⟩
  · exact (p.allows_iff name).mp (built.allowed name used)
  · have some : tokensOf (scanned options input) ≠ [] := by
      intro none
      have spelled := built.spelled
      rw [none] at spelled
      cases spelled
    have errors := (lexicalErrors_read built.moves some rfl).1
    rw [built.ahead, clean.2] at errors
    exact Nat.le_zero.mp errors

theorem accepted_of_sentence {p : Syntax.Program} {rest : List Token}
    (sentence : Sentence (scanned options input) p rest)
    (room : (compile options input).program.HasRoom) :
    (compile options input).verdict = .accepted := by
  obtain ⟨read, spelled, name, declarations, names⟩ := sentence.spelled.exists_nearest
  have allowed : ∀ name ∈ read.body.names, read.scope.Allows name := by
    intro used member
    have named := sentence.named used (names member)
    rw [← name] at named
    rw [read.allows_iff]
    unfold Syntax.Program.Declares at *
    rwa [declarations]
  have some : tokensOf (scanned options input) ≠ [] := by
    intro none
    rw [none] at spelled
    cases spelled
  have orderly := firstSession_orderly options input
  have leads := program_progresses spelled allowed (ahead_firstSession options input) _ _ orderly
  cases ran : Rule.program (firstSession options input) with
  | ok _ t =>
    obtain ⟨syntactic, _, builds⟩ := Leads.ok leads ran
    have moves := (Leads.ok (program_does _ orderly.valid) ran).1
    have errors := (lexicalErrors_read moves some rfl).2
    rw [builds.1, sentence.errors] at errors
    rw [tables_of_ok ran] at room
    refine (accepted_iff options input).mpr ⟨t, ran, syntactic, ?_⟩
    exact errors.resolve_right (Nat.ne_of_lt room.1)
  | error abort t =>
    obtain ⟨_, _, full⟩ := Leads.error leads ran
    rw [tables_of_error ran] at room
    obtain full | full := full
    · exact absurd full (Nat.ne_of_lt room.1)
    · exact absurd full (Nat.ne_of_lt room.2)

/-- The compiler accepts only sentences of its grammar, and all of them where its capacities are not
used up. -/
theorem compile_accepts_iff_sentence (options : CompileOptions) (input : Input) :
    ((compile options input).verdict = .accepted →
      ∃ p rest, Sentence (scanned options input) p rest) ∧
    ((compile options input).program.HasRoom →
      ((compile options input).verdict = .accepted ↔
        ∃ p rest, Sentence (scanned options input) p rest)) := by
  refine ⟨sentence_of_accepted, fun room => ⟨sentence_of_accepted, fun exists_sentence => ?_⟩⟩
  obtain ⟨p, rest, sentence⟩ := exists_sentence
  exact accepted_of_sentence sentence room

/-- Whether a text was accepted, as a test. -/
def Verdict.isAccepted : Verdict → Bool
  | accepted => true
  | _ => false

theorem Verdict.eq_accepted {verdict : Verdict} (is : verdict.isAccepted = true) :
    verdict = accepted := by
  cases verdict <;> first | rfl | cases is

/-- A program text as an input. -/
def Input.ofString (text : String) : Input :=
  .ofStreams [{ name := [], later := [⟨text.toList, 0⟩] }]

/-- Choices within choices, empty statements, a variable with the name of the program, and a character
that no token starts with after the token after the period. -/
theorem sentence_of_nested_choices :
    let input := Input.ofString "unit p; var p: integer; var b: float; begin
      if p < 1 then if b > 2 then p := 1 else b := 2; repeat until p = 1; end. x @"
    (compile {} input).program.HasRoom ∧ ∃ p rest, Sentence (scanned {} input) p rest := by
  refine ⟨by unfold Program.HasRoom; decide +kernel, ?_⟩
  exact (compile_accepts_iff_sentence _ _).1 (Verdict.eq_accepted (by decide +kernel))

end MiniPascal
