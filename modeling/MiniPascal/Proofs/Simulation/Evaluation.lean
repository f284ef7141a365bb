import MiniPascal.Proofs.Simulation.Expressions

/-! # Evaluation in any surroundings

Quads that calculate, copy or jump do the same whatever the devices of a machine are and however they
fail. A machine without a limit on its steps goes through the code of an expression that has a value, and
stays within that code until it has left the value in its cell.
-/

namespace MiniPascal

open Syntax

namespace Machine

variable {low high : Nat} {m next last : Machine}

/-! ## Stretches of code -/

/-- A step at a quad from `low` on, before `high`. -/
def StepsIn (low high : Nat) (m next : Machine) : Prop := (low ≤ m.pc ∧ m.pc < high) ∧ m.Steps next

/-- A machine comes to another state by steps at quads of a stretch of code. -/
abbrev ReachesWithin (low high : Nat) : Machine → Machine → Prop :=
  Relation.ReflTransGen (StepsIn low high)

/-- A machine runs through a stretch of code up to the first state outside of it. -/
structure Leaves (low high : Nat) (m last : Machine) : Prop where
  reaches : ReachesWithin low high m last
  outside : ¬ (low ≤ last.pc ∧ last.pc < high)

theorem StepsIn.widen {low' high' : Nat} (steps : m.StepsIn low high next) (lower : low' ≤ low)
    (upper : high ≤ high') : m.StepsIn low' high' next :=
  ⟨⟨Nat.le_trans lower steps.1.1, Nat.lt_of_lt_of_le steps.1.2 upper⟩, steps.2⟩

theorem ReachesWithin.widen {low' high' : Nat} (reaches : ReachesWithin low high m last)
    (lower : low' ≤ low) (upper : high ≤ high') : ReachesWithin low' high' m last :=
  reaches.lift id fun _ _ steps => steps.widen lower upper

theorem ReachesWithin.reaches (reaches : ReachesWithin low high m last) : m.Reaches last :=
  reaches.lift id fun _ _ steps => steps.2

theorem Steps.unique (first : m.Steps next) (second : m.Steps last) : next = last := by
  have same := first.eq.symm.trans second.eq
  cases same
  rfl

theorem Leaves.unique (first : m.Leaves low high next) (second : m.Leaves low high last) :
    next = last := by
  obtain ⟨reaches, outside⟩ := first
  obtain ⟨reaches', outside'⟩ := second
  induction reaches using Relation.ReflTransGen.head_induction_on with
  | refl =>
    obtain rfl | ⟨_, steps, _⟩ := Relation.ReflTransGen.cases_head reaches'
    · rfl
    · exact absurd steps.1 outside
  | head steps _ ih =>
    obtain rfl | ⟨_, steps', later⟩ := Relation.ReflTransGen.cases_head reaches'
    · exact absurd steps.1 outside'
    · obtain rfl := steps.2.unique steps'.2
      exact ih later

/-! ## Standing at a place -/

/-- A machine without a limit on its steps stands at a place of the code. -/
structure At (quads : List Quad) (place : Nat) (m : Machine) : Prop where
  pc : m.pc = place
  quads : m.program.quads.code = quads
  free : m.stepLimit ≤ 0

namespace At

variable {quads : List Quad} {place : Nat} {q : Quad} {symbols : SymbolTable}

theorem fetches (here : m.At quads place) (quad : quads[place]? = some q) : m.next = q := by
  rw [Machine.next, here.pc]
  apply QuadTable.get_of_code
  rw [here.quads, quad]

theorem intent (here : m.At quads place) (quad : quads[place]? = some q) :
    ¬ m.OverLimit ∧ m.intent = q.action m.program.symbols := by
  refine ⟨fun limit => absurd limit.1 (Int.not_lt.mpr here.free), ?_⟩
  rw [Machine.intent, here.fetches quad]

theorem stepLimit_ready (m : Machine) : m.ready.stepLimit = m.stepLimit :=
  (m.fetched.sameState_traced _ _).stepLimit

theorem ready (here : m.At quads place) : m.ready.At quads (place + 1) where
  pc := by rw [m.pc_ready, here.pc]
  quads := by rw [m.program_ready, here.quads]
  free := by
    rw [stepLimit_ready]
    exact here.free

/-- A quad writes a cell. -/
theorem write (here : m.At quads place) (quad : quads[place]? = some q)
    (does : q.action m.program.symbols = .ok (.write symbols)) :
    ∃ next, m.Steps next ∧ next.At quads (place + 1) ∧ next.program.symbols = symbols := by
  obtain ⟨within, intent⟩ := here.intent quad
  exact ⟨_, .write within (intent.trans does), ⟨here.ready.pc, here.ready.quads, here.ready.free⟩, rfl⟩

/-- A conditional jump, by the sign of a number. -/
theorem branch (here : m.At quads place) {op : Opcode} {i target : Nat} {x : Value}
    (quad : quads[place]? = some ⟨op, i, 0, target⟩) (is : op.isConditional = true)
    (holds : m.program.symbols.Holds i x) (numeric : x.kind.Numeric) :
    ∃ next, m.Steps next ∧ next.At quads (if op.taken x.signum then target else place + 1) ∧
      next.program.symbols = m.program.symbols := by
  obtain ⟨within, intent⟩ := here.intent quad
  have does : Quad.action ⟨op, i, 0, target⟩ m.program.symbols = _ := Quad.action_of_conditional is
  rw [holds.value] at does
  change _ = (Outcome.ofAccess x.sign >>= _ : Outcome Action) at does
  rw [sign_eq numeric] at does
  change _ = Except.ok (if op.taken x.signum then Action.goto target else .next) at does
  have same := congrArg Program.symbols m.program_ready
  cases taken : op.taken x.signum with
  | true =>
    rw [taken] at does
    exact ⟨_, .goto within (intent.trans does), ⟨rfl, here.ready.quads, here.ready.free⟩, same⟩
  | false =>
    rw [taken] at does
    exact ⟨_, .next within (intent.trans does), here.ready, same⟩

end At

end Machine

/-! ## Values in cells -/

/-- What an operation on two integers does, by its exact result. -/
theorem Quad.action_of_exactly {op : Operator} {symbols : SymbolTable} {i j : Nat} {a b : Int64} {n : Int}
    (left : symbols.Holds i (.int a)) (right : symbols.Holds j (.int b))
    (exact : op.exactly a.toInt b.toInt = .ok n) (c : Int) :
    Quad.action ⟨op.opcode, i, j, c⟩ symbols =
      ((Outcome.ofResult ((word? n).elim (.error .overflow) .ok)).map Value.int >>= fun value =>
        symbols.stored c value >>= fun after => .ok (.write after)) := by
  rw [Quad.action_of_arithmetic (by cases op <;> rfl), left.value, right.value]
  change (compute op.opcode (.int a) (.int b) >>= _ : Outcome Action) = _
  rw [compute_int, integerOperation_of_exactly exact]

namespace Machine

variable {m next : Machine}

/-- A step that puts a value into a cell and leaves the other cells alone. -/
structure Puts (k : Nat) (value : Value) (m next : Machine) : Prop where
  steps : m.Steps next
  holds : next.program.symbols.Holds k value
  others : ∀ {j : Nat} {y : Value}, k ≠ j → m.program.symbols.Holds j y → next.program.symbols.Holds j y

namespace At

variable {quads : List Quad} {place : Nat} {q : Quad} {i j k : Nat} {value : Value}

/-- A value is stored into a cell of its kind. -/
theorem put (here : m.At quads place) (quad : quads[place]? = some q)
    (does : q.action m.program.symbols =
      m.program.symbols.stored k value >>= fun after => .ok (.write after))
    (kind : m.program.symbols.kindAt k = some value.kind) :
    ∃ next, m.Puts k value next ∧ next.At quads (place + 1) := by
  obtain ⟨cell, stored, same⟩ := Option.map_eq_some_iff.mp kind
  rw [SymbolTable.stored_same stored same.symm] at does
  obtain ⟨next, steps, there, after⟩ := here.write quad does
  refine ⟨next, ⟨steps, ?_, ?_⟩, there⟩
  · rw [after]
    exact SymbolTable.holds_modify stored _
  · intro j y other holds
    rw [after]
    exact holds.modify other _

theorem copy (here : m.At quads place) (quad : quads[place]? = some ⟨.mov, i, 0, k⟩)
    (holds : m.program.symbols.Holds i value) (kind : m.program.symbols.kindAt k = some value.kind) :
    ∃ next, m.Puts k value next ∧ next.At quads (place + 1) := by
  have does : Quad.action ⟨.mov, i, 0, k⟩ m.program.symbols = _ := Quad.action_of_mov rfl
  rw [holds.value] at does
  exact here.put quad does kind

/-- An operation on integers whose exact result fits in a word. -/
theorem calculate (here : m.At quads place) (op : Operator)
    (quad : quads[place]? = some ⟨op.opcode, i, j, k⟩) {a b c : Int64}
    (left : m.program.symbols.Holds i (.int a)) (right : m.program.symbols.Holds j (.int b))
    (exact : op.exactly a.toInt b.toInt = .ok c.toInt)
    (kind : m.program.symbols.kindAt k = some .integer) :
    ∃ next, m.Puts k (.int c) next ∧ next.At quads (place + 1) := by
  have does := Quad.action_of_exactly left right exact k
  rw [word_eq_some.mpr rfl] at does
  exact here.put quad does kind

end At

end Machine

/-! ## Expressions -/

theorem exists_of_bind {ε α β : Type} {x : Except ε α} {f : α → Except ε β} {b : β}
    (bound : x.bind f = .ok b) : ∃ a, x = .ok a ∧ f a = .ok b := by
  cases x with
  | error => cases bound
  | ok a => exact ⟨a, rfl, bound⟩

namespace Setting

variable {S : Setting} {store : Store} {m : Machine}

/-- A machine has evaluated an expression: it stands behind its code, the value is in a cell, and the
variables, the constants and the temporaries up to `n` are as they were before. -/
structure Evaluated (S : Setting) (store : Store) (n : Nat) (before : SymbolTable) (place i : Nat)
    (value : Value) (m : Machine) : Prop where
  standing : m.At S.quads place
  represents : S.Represents store m.program.symbols
  keeps : S.Keeps n before m.program.symbols
  holds : m.program.symbols.Holds i value

/-- An operation on two cells, as the last quad of an expression. -/
theorem operation_evaluated (sound : S.Sound) (op : Operator) {i j k c place : Nat} {x y value : Value}
    (quad : S.quads[place]? = some ⟨op.opcode, i, j, c⟩) (standing : m.At S.quads place)
    (represents : S.Represents store m.program.symbols) (left : m.program.symbols.Holds i x)
    (right : m.program.symbols.Holds j y)
    (made : S.table.Temporary (k + 1) (arithmeticKind x.kind y.kind) c)
    (applies : op.apply x y = .ok value) :
    ∃ next, m.StepsIn place (place + 1) next ∧
      S.Evaluated store k m.program.symbols (place + 1) c value next := by
  have agrees := represents.operation sound op left right made
  rw [applies] at agrees
  generalize does : Quad.action _ _ = outcome at agrees
  obtain @⟨_, _, ⟨computes⟩⟩ := agrees
  obtain ⟨next, steps, standing', rfl⟩ := standing.write quad does
  have inside : place ≤ m.pc ∧ m.pc < place + 1 := by
    rw [standing.pc]
    exact ⟨Nat.le_refl _, Nat.lt_succ_self _⟩
  exact ⟨next, ⟨inside, steps⟩, standing', computes.represents, computes.keeps k (Nat.lt_succ_self k),
    computes.holds⟩

/-- The machine calculates the value of a number expression. -/
theorem simple_evaluated (sound : S.Sound) {e : Expr} {lo hi i place : Nat} {code : List Quad}
    {value : Value} (laid : e.Laid S.table lo hi code i) (drawn : e.DrawnFrom S.tokens)
    (has : S.Has place code) (standing : m.At S.quads place)
    (represents : S.Represents store m.program.symbols) (evaluates : e.eval S.naming.meaning store = .ok value) :
    ∃ next, m.ReachesWithin place (place + code.length) next ∧
      S.Evaluated store lo m.program.symbols (place + code.length) i value next := by
  induction laid generalizing place m value with
  | literal found =>
    cases evaluates
    exact ⟨m, .refl, standing, represents, .refl _ _, represents.constants (.number drawn) found⟩
  | var found =>
    cases evaluates
    exact ⟨m, .refl, standing, represents, .refl _ _, represents.words drawn found⟩
  | @negated e lo n i one result code inner minusOne made ih =>
    have le := inner.le
    obtain ⟨x, evaluates, applies⟩ := exists_of_bind evaluates
    obtain ⟨middle, reaches, evaluated⟩ := ih drawn has.left standing represents evaluates
    have unit : middle.program.symbols.Holds one (.int (-1)) :=
      evaluated.represents.constants (.unit (.inr rfl)) minusOne
    obtain ⟨next, steps, evaluated'⟩ := operation_evaluated sound .mul has.right.head evaluated.standing
      evaluated.represents evaluated.holds unit
      (evaluated.represents.result made evaluated.holds unit) applies
    rw [List.length_append, List.length_singleton, ← Nat.add_assoc]
    refine ⟨next, .tail (reaches.widen (Nat.le_refl _) (Nat.le_succ _)) (steps.widen (by omega) (by omega)), ?_⟩
    exact ⟨evaluated'.standing, evaluated'.represents, evaluated.keeps.trans (evaluated'.keeps.mono le),
      evaluated'.holds⟩
  | @operation op _ _ lo middle n i j result code code' left right made ih ih' =>
    have le := left.le
    have le' := right.le
    obtain ⟨x, evaluates, evaluates'⟩ := exists_of_bind evaluates
    obtain ⟨y, evaluates', applies⟩ := exists_of_bind evaluates'
    obtain ⟨first, reaches, evaluated⟩ := ih drawn.1 has.left standing represents evaluates
    obtain ⟨second, reaches', evaluated'⟩ :=
      ih' drawn.2 has.right.left evaluated.standing evaluated.represents evaluates'
    have kept := (settled_of_laid left (.inl drawn.1)).holds evaluated.represents evaluated'.represents
      (fun _ _ => rfl) evaluated'.keeps evaluated.holds
    obtain ⟨next, steps, evaluated''⟩ := operation_evaluated sound op has.right.right.head
      evaluated'.standing evaluated'.represents kept evaluated'.holds
      (evaluated'.represents.result made kept evaluated'.holds) applies
    rw [List.length_append, List.length_append, List.length_singleton, ← Nat.add_assoc, ← Nat.add_assoc]
    refine ⟨next, .tail (.trans (reaches.widen (by omega) (by omega)) (reaches'.widen (by omega) (by omega)))
      (steps.widen (by omega) (by omega)), ?_⟩
    exact ⟨evaluated''.standing, evaluated''.represents,
      evaluated.keeps.trans ((evaluated'.keeps.mono le).trans (evaluated''.keeps.mono (by omega))),
      evaluated''.holds⟩

/-- Two expressions are evaluated, one behind the other. -/
theorem both_evaluated (sound : S.Sound) {e e' : Expr} {lo middle hi i j place : Nat} {code code' : List Quad}
    {x y : Value} (laid : e.Laid S.table lo middle code i)
    (laid' : e'.Laid S.table middle hi code' j) (drawn : e.DrawnFrom S.tokens)
    (drawn' : e'.DrawnFrom S.tokens) (has : S.Has place (code ++ code')) (standing : m.At S.quads place)
    (represents : S.Represents store m.program.symbols) (evaluates : e.eval S.naming.meaning store = .ok x)
    (evaluates' : e'.eval S.naming.meaning store = .ok y) :
    ∃ next, m.ReachesWithin place (place + code.length + code'.length) next ∧
      next.At S.quads (place + code.length + code'.length) ∧
      S.Represents store next.program.symbols ∧ next.program.symbols.Holds i x ∧
      next.program.symbols.Holds j y := by
  obtain ⟨first, reaches, evaluated⟩ :=
    simple_evaluated sound laid drawn has.left standing represents evaluates
  obtain ⟨second, reaches', evaluated'⟩ := simple_evaluated sound laid' drawn' has.right
    evaluated.standing evaluated.represents evaluates'
  have kept := (settled_of_laid laid (.inl drawn)).holds evaluated.represents
    evaluated'.represents (fun _ _ => rfl) evaluated'.keeps evaluated.holds
  refine ⟨second, .trans (reaches.widen (by omega) (by omega)) (reaches'.widen (by omega) (by omega)),
    evaluated'.standing, evaluated'.represents, kept, evaluated'.holds⟩

end Setting

end MiniPascal
