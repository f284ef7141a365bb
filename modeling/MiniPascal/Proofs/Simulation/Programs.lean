import MiniPascal.Proofs.Simulation.Statements

/-! # Machines run programs as they are written

A machine that is given the code of a program stands at its beginning, so it follows the program to its
end. Whatever a machine does in `n` steps is known from the semantics with `n` rounds, for every round
takes a step: a run ends exactly if the program does, and then it ends like the program.

Text literals that differ in the case of their letters share a cell, and they share their meaning. Only a
`FOR` is not performed as it is written, if its limit is nothing but the counter: this limit is read after
the counter has been assigned.
-/

namespace MiniPascal

open Syntax

/-! ## Variables -/

namespace Syntax

/-- The variables of a program: those it declares, and those it uses. -/
def Program.names (p : Program) : List Text := p.declarations.map (·.1) ++ p.body.names

variable {table : SymbolTable} {tokens : List Token} {lo hi base i : Nat} {code : List Quad}

theorem Expr.Laid.names {e : Expr} (laid : e.Laid table lo hi code i) :
    ∀ name ∈ e.names, ∃ j, table.lookup? name = some j := by
  induction laid with
  | literal => exact List.forall_mem_nil _
  | var found => exact List.forall_mem_singleton.mpr ⟨_, found⟩
  | negated _ _ _ ih => exact ih
  | operation _ _ _ ih ih' => exact List.forall_mem_append.mpr ⟨ih, ih'⟩

theorem Stmt.Laid.names {s : Stmt} (laid : s.Laid table lo hi base code) :
    ∀ name ∈ s.names, ∃ j, table.lookup? name = some j := by
  induction laid with
  | empty => exact List.forall_mem_nil _
  | sequence _ _ ih ih' => exact List.forall_mem_append.mpr ⟨ih, ih'⟩
  | assignment found source => exact List.forall_mem_cons.mpr ⟨⟨_, found⟩, source.names⟩
  | ifThen test _ ih | whileLoop test _ ih => exact List.forall_mem_append.mpr ⟨test.names, ih⟩
  | ifElse test _ _ ih ih' =>
    exact List.forall_mem_append.mpr ⟨test.names, List.forall_mem_append.mpr ⟨ih, ih'⟩⟩
  | repeatLoop _ test ih => exact List.forall_mem_append.mpr ⟨ih, test.names⟩
  | forLoop found starts upTo _ _ _ _ _ ih =>
    exact List.forall_mem_cons.mpr ⟨⟨_, found⟩,
      List.forall_mem_append.mpr ⟨starts.names, List.forall_mem_append.mpr ⟨upTo.names, ih⟩⟩⟩
  | writeln value => exact value.names
  | readln found => exact List.forall_mem_singleton.mpr ⟨_, found⟩

theorem Expr.DrawnFrom.names {e : Expr} (drawn : e.DrawnFrom tokens) :
    ∀ name ∈ e.names, Among tokens .identifier name := by
  induction e with
  | literal => exact List.forall_mem_nil _
  | var => exact List.forall_mem_singleton.mpr drawn
  | negated _ ih => exact ih drawn
  | operation _ _ _ ih ih' => exact List.forall_mem_append.mpr (drawn.imp ih ih')

theorem Expr.OperandFrom.names {e : Expr} (drawn : e.OperandFrom tokens) :
    ∀ name ∈ e.names, Among tokens .identifier name := by
  obtain drawn | ⟨name, rfl, _⟩ := drawn
  · exact drawn.names
  · exact List.forall_mem_nil _

theorem Relation.DrawnFrom.names {r : Relation} (drawn : r.DrawnFrom tokens) :
    ∀ name ∈ r.names, Among tokens .identifier name :=
  List.forall_mem_append.mpr (drawn.imp Expr.DrawnFrom.names Expr.DrawnFrom.names)

theorem Stmt.DrawnFrom.names {s : Stmt} (drawn : s.DrawnFrom tokens) :
    ∀ name ∈ s.names, Among tokens .identifier name := by
  induction s with
  | empty => exact List.forall_mem_nil _
  | sequence _ _ ih ih' => exact List.forall_mem_append.mpr (drawn.imp ih ih')
  | assignment => exact List.forall_mem_cons.mpr (drawn.imp_right Expr.OperandFrom.names)
  | ifThen _ _ ih | whileLoop _ _ ih =>
    exact List.forall_mem_append.mpr (drawn.imp Relation.DrawnFrom.names ih)
  | ifElse _ _ _ ih ih' =>
    exact List.forall_mem_append.mpr ⟨drawn.1.names, List.forall_mem_append.mpr (drawn.2.imp ih ih')⟩
  | repeatLoop _ _ ih => exact List.forall_mem_append.mpr (drawn.imp ih Relation.DrawnFrom.names)
  | forLoop _ _ _ _ _ ih =>
    obtain ⟨counter, start, limit, body⟩ := drawn
    exact List.forall_mem_cons.mpr ⟨counter,
      List.forall_mem_append.mpr ⟨start.names, List.forall_mem_append.mpr ⟨limit.names, ih body⟩⟩⟩
  | writeln => exact Expr.OperandFrom.names drawn
  | readln => exact List.forall_mem_singleton.mpr drawn

/-- A program declares only integers, reals and texts. -/
theorem GroupsSpelled.kinds {declared : List (Text × Kind)} {input rest : List Token}
    (spelled : GroupsSpelled declared input rest) :
    ∀ entry ∈ declared, (Value.zero entry.2).kind = entry.2 := by
  have group {names : List Text} {kind : Kind} {word : TokenKind} (is : TypeWord word kind) :
      ∀ entry ∈ names.map (·, kind), (Value.zero entry.2).kind = entry.2 := by
    intro entry member
    obtain ⟨_, _, rfl⟩ := List.mem_map.mp member
    cases is <;> rfl
  induction spelled with
  | single _ _ is => exact group is
  | more _ _ is _ _ ih => exact List.forall_mem_append.mpr ⟨group is, ih⟩

theorem SectionsSpelled.kinds {declared : List (Text × Kind)} {input rest : List Token}
    (spelled : SectionsSpelled declared input rest) :
    ∀ entry ∈ declared, (Value.zero entry.2).kind = entry.2 := by
  induction spelled with
  | none => exact List.forall_mem_nil _
  | more _ first _ ih => exact List.forall_mem_append.mpr ⟨first.kinds, ih⟩

theorem Program.Spelled.kind_zero {p : Program} {nearest : Prop} {input rest : List Token}
    (spelled : p.Spelled nearest input rest) (name : Text) :
    (Value.zero (p.kindOf name)).kind = p.kindOf name := by
  obtain ⟨_, _, _, sections⟩ := spelled
  unfold Program.kindOf
  cases found : List.find? _ _ with
  | none => rfl
  | some entry => exact sections.kinds entry (List.mem_reverse.mp (List.mem_of_find?_eq_some found))

end Syntax

/-! ## A program before its first step -/

/-- The setting of a program whose compilation ended in a session. -/
def Syntax.Program.setting (p : Syntax.Program) (tokens : List Token) (t : Session) (console : Console) :
    Setting :=
  ⟨t.symbols, t.code, tokens, p.naming tokens, console⟩

namespace Built

variable {options : CompileOptions} {input : Input} {p : Syntax.Program} {rest : List Token} {t : Session}
  {console : Console}

/-- A literal is neither a word nor a temporary. -/
theorem literal_apart {kind : TokenKind} {name : Text} (usual : options.quote = usualQuote)
    (among : Among (tokensOf (scanned options input)) kind name) (has : kind.hasSymbol = true)
    (other : kind ≠ .identifier) : ¬ name.IsWord ∧ ∀ n, ¬ name.SameName (Rule.temporaryName n) := by
  refine ⟨fun word => ?_, not_temporary_of_among among has⟩
  obtain ⟨found, registration, proper, registers, rfl, rfl⟩ := lexeme_of_among among has
  exact other ((usual ▸ proper).kind_of_isWord registers word)

theorem sound (built : Built options input p rest t) (usual : options.quote = usualQuote)
    (steady : console.Steady) :
    (p.setting (tokensOf (scanned options input)) t console).Sound where
  wellFormed := built.orderly.valid.symbols
  words := isWord_of_among
  constants := by
    intro name value constant
    cases constant with
    | number among =>
      obtain among | among := among
      · exact literal_apart usual among rfl (by decide)
      · exact literal_apart usual among rfl (by decide)
    | text among => exact literal_apart usual among rfl (by decide)
    | unit unit =>
      refine ⟨not_isWord_unit unit, fun n => ?_⟩
      obtain rfl | rfl := unit
      · exact Rule.temporaryName_ne (.inl rfl)
      · exact Rule.temporaryName_ne (.inr rfl)
  kinds := by
    intro name i among found
    obtain ⟨_, cell, _, stored, _, zero⟩ := built.word usual (isWord_of_among among) found
    change (t.symbols.cells[i]?).map _ = some (p.kindOf name)
    rw [stored, Option.map_some, zero]
    exact congrArg some (built.spelled.kind_zero name)
  names := built.spelling usual
  steady := steady

theorem represents (built : Built options input p rest t) (usual : options.quote = usualQuote) (feed : Feed) :
    (p.setting (tokensOf (scanned options input)) t console).Represents (p.start feed).store
      t.symbols where
  alike := .refl _
  words := by
    intro name i among found
    obtain ⟨_, cell, _, stored, _, zero⟩ := built.word usual (isWord_of_among among) found
    exact ⟨cell, stored, zero⟩
  constants := by
    intro name value i constant found
    cases constant with
    | number among =>
      obtain ⟨cell, stored, _, denotes⟩ := built.number usual among found
      change SymbolTable.Holds _ i (literalValue (firstSpelling _ _ name))
      rw [firstSpelling_of_number usual among, literalValue_of_number among, denotes]
      exact ⟨cell, stored, rfl⟩
    | text among => exact built.text usual among found
    | unit unit => exact built.unit unit found

/-- A machine with the program's code stands at its beginning. -/
theorem standing (built : Built options input p rest t) (usual : options.quote = usualQuote) {m : Machine}
    (loaded : m.program = (compile options input).program) (free : m.stepLimit ≤ 0)
    (steady : m.console.Steady) :
    (p.setting (tokensOf (scanned options input)) t m.console).Standing (p.start m.feed) 0 m.rewind where
  pc := rfl
  quads := by
    change m.program.quads.code = t.code
    rw [loaded, built.tables]
  free := free
  represents := by
    change Setting.Represents _ _ m.program.symbols
    rw [loaded, built.tables]
    exact built.represents usual m.feed
  passes := .refl steady.fluent
  feed := rfl

/-- A machine with the program's code follows the program as it is performed. -/
theorem follows (built : Built options input p rest t) (usual : options.quote = usualQuote) {m : Machine}
    (loaded : m.program = (compile options input).program) (free : m.stepLimit ≤ 0)
    (steady : m.console.Steady) (rounds : Nat) :
    (p.setting (tokensOf (scanned options input)) t m.console).Follows rounds m.rewind
      (fun (_ : Empty) _ => False)
      (p.performed.run (p.naming (tokensOf (scanned options input))) m.feed rounds) := by
  obtain ⟨code, written, laid⟩ := built.code
  have sound := built.sound usual steady
  have has : (p.setting (tokensOf (scanned options input)) t m.console).Has 0
      (code ++ [⟨.stop, 0, 0, 0⟩]) := by
    intro k q here
    rw [Nat.zero_add]
    exact (congrArg (·[k]?) written).trans here
  have performs := Setting.statement_follows sound (Setting.repeats_run sound rounds) laid
    built.spelled.drawn.body has.left
  apply (performs _ _ (built.standing usual loaded free steady)).bind
  rintro state last ⟨standing, _⟩
  exact standing.stop sound has.right.head

end Built

/-! ## Runs -/

/-- How a run leaves a machine, if the program ends in a state. -/
structure Conforms (p : Syntax.Program) (m : Machine) (ending : Ending) (state : State)
    (failure : Option Failure) (after : Machine) : Prop where
  reported : ending.Reported after failure
  shown : ∀ number ∈ m.console.numbers,
    after.console.devices.received number ++ after.console.pending number =
      m.console.devices.received number ++ m.console.pending number ++ state.shown
  drained : (∀ outlet ∈ m.console.outlets, outlet.buffers = false) ∨ ending ≠ .faulted .wrongKind →
    ∀ number, after.console.pending number = []
  feed : after.feed = state.feed
  values : ∀ name ∈ p.names, ∃ i, m.program.symbols.lookup? name = some i ∧
    after.program.symbols.Holds i (state.store name)

theorem Built.conforms {options : CompileOptions} {input : Input} {p : Syntax.Program} {rest : List Token}
    {t : Session} {m after : Machine} {ending : Ending} {state : State} {halt : Halt}
    (built : Built options input p rest t) (loaded : m.program = (compile options input).program)
    (ended : (p.setting (tokensOf (scanned options input)) t m.console).Ended ending state halt after) :
    Conforms p m ending state (after.runFailure? halt) after where
  reported := ended.reported
  shown := ended.passes.sent
  drained := by
    rintro (unbuffered | other)
    · exact ended.passes.pending_of_unbuffered unbuffered
    · exact ended.drained other
  feed := ended.feed
  values := by
    obtain ⟨code, _, laid⟩ := built.code
    have drawn := built.spelled.drawn
    obtain ⟨_, _, _, books⟩ := built.orderly
    rw [loaded, built.tables]
    have declared : ∀ name ∈ p.declarations.map (·.1), ∃ i, t.symbols.lookup? name = some i ∧
        after.program.symbols.Holds i (state.store name) := by
      intro name member
      obtain ⟨entry, listed, rfl⟩ := List.mem_map.mp member
      obtain ⟨i, found⟩ := books.declared entry listed
      exact ⟨i, found, ended.represents.words (drawn.declared entry listed) found⟩
    have used : ∀ name ∈ p.body.names, ∃ i, t.symbols.lookup? name = some i ∧
        after.program.symbols.Holds i (state.store name) := by
      intro name member
      obtain ⟨i, found⟩ := laid.names name member
      exact ⟨i, found, ended.represents.words (drawn.body.names name member) found⟩
    exact List.forall_mem_append.mpr ⟨declared, used⟩

/-- The code of an accepted text does what the text says, but that `performed` puts off some limits: a
run ends exactly if the program does, and both leave the same. -/
theorem compiled_programs_run_as_written (options : CompileOptions) (input : Input)
    (usual : options.quote = usualQuote) (accepted : (compile options input).verdict = .accepted) :
    let tokens := tokensOf (scanned options input)
    (∃ p rest, Syntax.Program.Spelled True p tokens rest) ∧
      ∀ p rest, Syntax.Program.Spelled True p tokens rest → (p.body.FixedLimits → p.performed = p) ∧
      ∀ m : Machine, m.program = (compile options input).program → m.stepLimit ≤ 0 → m.console.Steady →
        (∀ rounds ending state, p.performed.run (p.naming tokens) m.feed rounds = .ends ending state →
          ∃ least, ∀ fuel > least, ∃ failure after, m.run .background fuel = (.finished failure, after) ∧
            Conforms p m ending state failure after) ∧
        ∀ fuel failure after, m.run .background fuel = (.finished failure, after) →
          ∃ ending state,
            (∀ rounds ≥ fuel, p.performed.run (p.naming tokens) m.feed rounds = .ends ending state) ∧
            Conforms p m ending state failure after := by
  obtain ⟨spells, builds⟩ := built_of_accepted accepted
  refine ⟨spells, fun p rest spelled => ⟨Program.performed_of_fixedLimits, ?_⟩⟩
  intro m loaded free steady
  obtain ⟨t, built, _⟩ := builds p rest spelled
  constructor
  · intro rounds ending state ends
    have follows := built.follows usual loaded free steady rounds
    rw [ends] at follows
    cases follows with
    | @ends k _ final halt _ _ reaches inside halts ended =>
      refine ⟨k, fun fuel enough => ⟨_, final, Machine.run_of_halts reaches inside halts enough, ?_⟩⟩
      exact built.conforms loaded ended
  · intro fuel failure after finished
    have follows := built.follows usual loaded free steady fuel
    generalize course : p.performed.run (p.naming (tokensOf (scanned options input))) m.feed fuel = result at follows
    have within {k : Nat} {last : Machine} (reaches : Machine.ReachesIn k m.rewind last) : k < fuel := by
      by_contra few
      have ran := Machine.run_of_few reaches (Nat.le_of_not_lt few)
      rw [finished] at ran
      cases ran
    cases follows with
    | goesOn _ impossible => exact impossible.elim
    | unfinished many reaches => exact absurd (within reaches) (Nat.not_lt.mpr many)
    | @ends k _ final halt ending state reaches inside halts ended =>
      rw [Machine.run_of_halts reaches inside halts (within reaches)] at finished
      cases finished
      exact ⟨ending, state, fun rounds more => Program.run_of_le course more, built.conforms loaded ended⟩

/-- What a program has shown when it comes to its end. -/
def Syntax.Course.shown? {α : Type} : Course α → Option Bytes
  | ends .finished state => some state.shown
  | _ => none

theorem Syntax.Course.ends_of_shown {α : Type} {course : Course α} {bytes : Bytes}
    (shows : course.shown? = some bytes) : ∃ state, course = .ends .finished state ∧ state.shown = bytes := by
  rcases course with result | ⟨_ | failure | fault, state⟩ | _
  · cases shows
  · exact ⟨state, rfl, Option.some.inj shows⟩
  · cases shows
  · cases shows
  · cases shows

/-- A program that prints squares, up to the square of an integer that it reads. -/
def squares : Syntax.Program :=
  ⟨"p", [("n", .integer), ("i", .integer)],
    .sequence (.readln "n") (.forLoop "i" (.literal "1") (.var "n") false
      (.writeln (.operation .mul (.var "i") (.var "i"))))⟩

theorem squares_run_as_written :
    let input := Input.ofString "unit p; var n, i: integer; begin readln(n);
      for i := 1 to n do writeln(i * i) end."
    let tokens := tokensOf (scanned {} input)
    let m := Machine.buffered (compile {} input).program [.input (.ofBytes "input" (Text.bytes "3\n") none)]
    (compile {} input).verdict = .accepted ∧ squares.Spelled True tokens [] ∧
      squares.body.FixedLimits ∧ m.console.Steady ∧
      ∃ least, ∀ fuel > least, ∃ failure after, m.run .background fuel = (.finished failure, after) ∧
        after.console.devices.received 0 = Text.bytes "Enter an integer for n: 1\n4\n9\n" := by
  intro input tokens m
  obtain ⟨verdict, read, shown⟩ : (compile {} input).verdict.isAccepted = true ∧
      tokens = [⟨"unit".toList, .kwUnit⟩, ⟨"p".toList, .identifier⟩, ⟨[';'], .semicolon⟩,
        ⟨"var".toList, .kwVar⟩, ⟨"n".toList, .identifier⟩, ⟨[','], .comma⟩, ⟨"i".toList, .identifier⟩,
        ⟨[':'], .colon⟩, ⟨"integer".toList, .kwInteger⟩, ⟨[';'], .semicolon⟩,
        ⟨"begin".toList, .kwBegin⟩, ⟨"readln".toList, .kwReadln⟩, ⟨['('], .leftParen⟩,
        ⟨"n".toList, .identifier⟩, ⟨[')'], .rightParen⟩, ⟨[';'], .semicolon⟩,
        ⟨"for".toList, .kwFor⟩, ⟨"i".toList, .identifier⟩, ⟨":=".toList, .assign⟩,
        ⟨"1".toList, .integerLiteral⟩, ⟨"to".toList, .kwTo⟩, ⟨"n".toList, .identifier⟩,
        ⟨"do".toList, .kwDo⟩, ⟨"writeln".toList, .kwWriteln⟩, ⟨['('], .leftParen⟩,
        ⟨"i".toList, .identifier⟩, ⟨['*'], .star⟩, ⟨"i".toList, .identifier⟩, ⟨[')'], .rightParen⟩,
        ⟨"end".toList, .kwEnd⟩, ⟨['.'], .period⟩] ∧
      (squares.run (squares.naming tokens) m.feed 4).shown? =
        some (Text.bytes "Enter an integer for n: 1\n4\n9\n") := by
    decide +kernel
  have accepted := Verdict.eq_accepted verdict
  obtain ⟨_, spelled, rfl⟩ : ∃ p, Syntax.Program.Spelled True p tokens [] ∧ p = squares := by
    rw [read]
    exact ⟨_, .intro rfl rfl rfl (.more rfl (.single (.more (.single rfl) rfl rfl) rfl .integer rfl) .none)
      rfl (.sequence (.single (.readln rfl rfl rfl rfl)) rfl
        (.forLoop rfl rfl rfl (.term (.factor (.number (.inl rfl)))) rfl (.term (.factor (.var rfl))) rfl
          (.writeln rfl rfl (.simple (.term (.product (.factor (.var rfl)) rfl rfl (.var rfl)))) rfl)))
      rfl rfl, rfl⟩
  have fixed : squares.body.FixedLimits := by
    refine ⟨trivial, fun itself => ?_, trivial⟩
    exact absurd itself (by decide +kernel)
  have steady : m.console.Steady := Console.steady_single Manner.reliable_willing rfl rfl
  have loaded (program : Program) :
      let m := Machine.buffered program [.input (.ofBytes "input" (Text.bytes "3\n") none)]
      m.program = program ∧ m.stepLimit ≤ 0 := ⟨rfl, Int.le_refl 0⟩
  refine ⟨accepted, spelled, fixed, steady, ?_⟩
  obtain ⟨state, ends, shows⟩ := Course.ends_of_shown shown
  obtain ⟨_, runs⟩ := compiled_programs_run_as_written {} input rfl accepted
  obtain ⟨same, runs⟩ := runs squares [] spelled
  obtain ⟨finishes, _⟩ := runs m (loaded _).1 (loaded _).2 steady
  rw [same fixed] at finishes
  obtain ⟨least, runs⟩ := finishes 4 .finished state ends
  refine ⟨least, fun fuel enough => ?_⟩
  obtain ⟨failure, after, ran, conforms⟩ := runs fuel enough
  have printed := conforms.shown 0 (by decide)
  rw [conforms.drained (.inr (by simp)) 0, List.append_nil, shows] at printed
  exact ⟨failure, after, ran, printed⟩

/-- A program with a `FOR` that is limited by its own counter. -/
def countToItself : Syntax.Program :=
  ⟨"p", [("i", .integer)], .sequence (.assignment "i" (.literal "3"))
    (.forLoop "i" (.literal "1") (.var "i") false (.writeln (.var "i")))⟩

/-- The program counts to what the counter was before, the machine stops at the start. -/
theorem count_to_itself_departs_from_text :
    let input := Input.ofString
      "unit p; var i: integer; begin i := 3; for i := 1 to i do writeln(i) end."
    let tokens := tokensOf (scanned {} input)
    let m := Machine.buffered (compile {} input).program []
    (compile {} input).verdict = .accepted ∧ countToItself.Spelled True tokens [] ∧ m.console.Steady ∧
      (countToItself.run (countToItself.naming tokens) m.feed 4).shown? = some (Text.bytes "1\n2\n3\n") ∧
      (m.run .background 10).2.quad.op = .stop ∧
      (m.run .background 10).2.console.devices.received 0 = Text.bytes "1\n" := by
  intro input tokens m
  obtain ⟨verdict, read, shown, stops, printed⟩ : (compile {} input).verdict.isAccepted = true ∧
      tokens = [⟨"unit".toList, .kwUnit⟩, ⟨"p".toList, .identifier⟩, ⟨[';'], .semicolon⟩,
        ⟨"var".toList, .kwVar⟩, ⟨"i".toList, .identifier⟩, ⟨[':'], .colon⟩,
        ⟨"integer".toList, .kwInteger⟩, ⟨[';'], .semicolon⟩, ⟨"begin".toList, .kwBegin⟩,
        ⟨"i".toList, .identifier⟩, ⟨":=".toList, .assign⟩, ⟨"3".toList, .integerLiteral⟩,
        ⟨[';'], .semicolon⟩, ⟨"for".toList, .kwFor⟩, ⟨"i".toList, .identifier⟩,
        ⟨":=".toList, .assign⟩, ⟨"1".toList, .integerLiteral⟩, ⟨"to".toList, .kwTo⟩,
        ⟨"i".toList, .identifier⟩, ⟨"do".toList, .kwDo⟩, ⟨"writeln".toList, .kwWriteln⟩,
        ⟨['('], .leftParen⟩, ⟨"i".toList, .identifier⟩, ⟨[')'], .rightParen⟩,
        ⟨"end".toList, .kwEnd⟩, ⟨['.'], .period⟩] ∧
      (countToItself.run (countToItself.naming tokens) m.feed 4).shown? = some (Text.bytes "1\n2\n3\n") ∧
      (m.run .background 10).2.quad.op = .stop ∧
      (m.run .background 10).2.console.devices.received 0 = Text.bytes "1\n" := by
    decide +kernel
  obtain ⟨_, spelled, rfl⟩ : ∃ p, Syntax.Program.Spelled True p tokens [] ∧ p = countToItself := by
    rw [read]
    exact ⟨_, .intro rfl rfl rfl (.more rfl (.single (.single rfl) rfl .integer rfl) .none) rfl
      (.sequence (.single (.assignment rfl rfl (.simple (.term (.factor (.number (.inl rfl))))))) rfl
        (.forLoop rfl rfl rfl (.term (.factor (.number (.inl rfl)))) rfl (.term (.factor (.var rfl)))
          rfl (.writeln rfl rfl (.simple (.term (.factor (.var rfl)))) rfl))) rfl rfl, rfl⟩
  exact ⟨Verdict.eq_accepted verdict, spelled, Console.steady_single Manner.reliable_willing rfl rfl, shown,
    stops, printed⟩

end MiniPascal
