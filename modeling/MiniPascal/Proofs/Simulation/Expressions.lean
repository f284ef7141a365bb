import MiniPascal.Proofs.DefiniteAssignment
import MiniPascal.Proofs.Simulation.Courses

/-! # Machines evaluate expressions

The code of an expression leaves its value in a cell, and changes nothing else but temporaries of its own.
A relation is decided by the jump behind the code of its difference.
-/

namespace MiniPascal

open Syntax

namespace Syntax

theorem State.attempt_bind {α β : Type} (state : State) (x : Except Fault α) (f : α → Except Fault β) :
    state.attempt (x.bind f) = state.attempt x >>= fun a => state.attempt (f a) := by
  cases x <;> rfl

theorem Course.bind_goesOn {α : Type} (course : Course α) : course >>= .goesOn = course := by
  cases course <;> rfl

theorem Relation.eval_eq (meaning : Text → Value) (store : Store) (r : Relation) :
    r.eval meaning store = (r.difference.eval meaning store).map fun difference =>
      r.comparison.holds difference.signum := by
  rw [Relation.eval, Relation.difference, Expr.eval]
  cases r.left.eval meaning store with
  | error => rfl
  | ok x => cases r.right.eval meaning store <;> rfl

end Syntax

namespace Setting

variable {S : Setting} {store : Store} {symbols : SymbolTable}

/-! ## Operations -/

/-- The temporary for a result has the kind that the result will have. -/
theorem Represents.result (represents : S.Represents store symbols) {k i j c : Nat} {x y : Value}
    (made : S.table.Result k i j c) (left : symbols.Holds i x) (right : symbols.Holds j y) :
    S.table.Temporary k (arithmeticKind x.kind y.kind) c := by
  obtain ⟨kind, kind', first, second, temporary⟩ := made.kinds
  rw [left.kindAt represents.alike] at first
  rw [right.kindAt represents.alike] at second
  cases first
  cases second
  exact temporary

/-- A result is in its temporary. -/
structure Computes (S : Setting) (store : Store) (symbols : SymbolTable) (k c : Nat) (value : Value)
    (memory : SymbolTable) : Prop where
  represents : S.Represents store memory
  holds : memory.Holds c value
  keeps : ∀ n < k, S.Keeps n symbols memory

/-- A quad calculates, and the result goes into its temporary. -/
theorem Represents.operation (represents : S.Represents store symbols) (sound : S.Sound) (op : Operator)
    {k i j c : Nat} {x y : Value} (left : symbols.Holds i x) (right : symbols.Holds j y)
    (made : S.table.Temporary k (arithmeticKind x.kind y.kind) c) :
    Agree (Agree.Writes (S.Computes store symbols k c)) (op.apply x y)
      (Quad.action ⟨op.opcode, i, j, c⟩ symbols) := by
  rw [Quad.action_of_arithmetic (by cases op <;> rfl), left.value, right.value]
  apply (apply_agrees op x y).followed
  rintro value _ applies rfl
  have kind := (kind_of_apply applies).trans (Value.kind_zero (arithmeticKind_numeric x.kind y.kind)).symm
  obtain ⟨after, stores, represents', holds, keeps⟩ := represents.temporary sound made kind
  refine ⟨.write after, ?_, .intro ⟨represents', holds, keeps⟩⟩
  dsimp only
  rw [stores]
  rfl

/-! ## Expressions -/

/-- The machine has come to a place, and the temporaries up to `n` hold what they held before. -/
structure Arrives (S : Setting) (n : Nat) (before : SymbolTable) (place : Nat) (state : State)
    (m : Machine) : Prop where
  standing : S.Standing state place m
  keeps : S.Keeps n before m.program.symbols

/-- The machine has come to a place, and a cell holds a value. -/
structure Yields (S : Setting) (n : Nat) (before : SymbolTable) (place : Nat) (state : State) (i : Nat)
    (value : Value) (m : Machine) : Prop extends Arrives S n before place state m where
  holds : m.program.symbols.Holds i value

variable {e : Expr} {lo hi i place rounds : Nat} {code : List Quad} {state : State} {m : Machine}

/-- The cell that the value of an expression is left in. -/
theorem settled_of_laid (laid : e.Laid S.table lo hi code i) (drawn : e.OperandFrom S.tokens) :
    S.Settled hi (fun name => e = .var name) i := by
  cases laid with
  | literal found =>
    obtain among | ⟨_, ⟨⟩, among⟩ := drawn
    · exact .constant (.number among) found
    · exact .constant (.text among) found
  | var found =>
    obtain among | ⟨_, ⟨⟩, _⟩ := drawn
    exact .word among found rfl
  | negated _ _ made | operation _ _ made =>
    obtain ⟨_, _, _, _, temporary⟩ := made.kinds
    exact .temporary (Nat.le_refl _) temporary.lookup

/-- An operation on two cells, as the last quad of an expression. -/
theorem operation_follows (sound : S.Sound) (op : Operator) {j k c : Nat} {x y : Value}
    (here : S.quads[place]? = some ⟨op.opcode, i, j, c⟩) (standing : S.Standing state place m)
    (left : m.program.symbols.Holds i x) (right : m.program.symbols.Holds j y)
    (made : S.table.Temporary (k + 1) (arithmeticKind x.kind y.kind) c) :
    S.Follows rounds m (S.Yields k m.program.symbols (place + 1) state c)
      (state.attempt (op.apply x y)) := by
  rw [← Course.bind_goesOn (state.attempt _)]
  apply Follows.of_agree standing sound here
    (standing.represents.operation sound op left right made)
  rintro value _ ⟨represents, holds, keeps⟩ does
  obtain ⟨steps, standing'⟩ := standing.write sound here does represents rfl rfl
  exact .step steps (.here ⟨⟨standing', keeps k (Nat.lt_succ_self k)⟩, holds⟩)

/-- The machine evaluates a number expression. -/
theorem simple_follows (sound : S.Sound) (laid : e.Laid S.table lo hi code i)
    (drawn : e.DrawnFrom S.tokens) (has : S.Has place code) (standing : S.Standing state place m) :
    S.Follows rounds m (S.Yields lo m.program.symbols (place + code.length) state i)
      (state.attempt (e.eval S.naming.meaning state.store)) := by
  induction laid generalizing place m with
  | literal found =>
    exact .here ⟨⟨standing, .refl _ _⟩, standing.represents.constants (.number drawn) found⟩
  | var found => exact .here ⟨⟨standing, .refl _ _⟩, standing.represents.words drawn found⟩
  | @negated e lo n i one result code inner minusOne made ih =>
    have le := inner.le
    rw [Expr.eval, State.attempt_bind]
    apply (ih drawn has.left standing).bind
    rintro x next ⟨⟨standing, keeps⟩, holds⟩
    have unit : next.program.symbols.Holds one (.int (-1)) :=
      standing.represents.constants (.unit (.inr rfl)) minusOne
    have result := standing.represents.result made holds unit
    apply (operation_follows sound .mul has.right.head standing holds unit result).mono
    rintro value last ⟨⟨standing', keeps'⟩, holds'⟩
    rw [List.length_append, ← Nat.add_assoc]
    exact ⟨⟨standing', keeps.trans (keeps'.mono le)⟩, holds'⟩
  | @operation op _ _ lo middle n i j result code code' left right made ih ih' =>
    have le := left.le
    have le' := right.le
    rw [Expr.eval, State.attempt_bind]
    apply (ih drawn.1 has.left standing).bind
    rintro x next ⟨⟨standing, keeps⟩, first⟩
    rw [State.attempt_bind]
    apply (ih' drawn.2 has.right.left standing).bind
    rintro y last ⟨⟨standing', keeps'⟩, second⟩
    have first' := (settled_of_laid left (.inl drawn.1)).holds standing.represents
      standing'.represents (fun _ _ => rfl) keeps' first
    have result := standing'.represents.result made first' second
    apply (operation_follows sound op has.right.right.head standing' first' second result).mono
    rintro value final ⟨⟨standing'', keeps''⟩, holds⟩
    rw [List.length_append, List.length_append, ← Nat.add_assoc, ← Nat.add_assoc]
    exact ⟨⟨standing'', keeps.trans ((keeps'.mono le).trans (keeps''.mono (by omega)))⟩, holds⟩

/-- The machine evaluates an expression. -/
theorem operand_follows (sound : S.Sound) (laid : e.Laid S.table lo hi code i)
    (drawn : e.OperandFrom S.tokens) (has : S.Has place code) (standing : S.Standing state place m) :
    S.Follows rounds m (S.Yields lo m.program.symbols (place + code.length) state i)
      (state.attempt (e.eval S.naming.meaning state.store)) := by
  obtain drawn | ⟨name, rfl, among⟩ := drawn
  · exact simple_follows sound laid drawn has standing
  · cases laid with
    | literal found =>
      exact .here ⟨⟨standing, .refl _ _⟩, standing.represents.constants (.text among) found⟩

/-! ## Relations -/

/-- A conditional jump, by the sign of a number. -/
theorem Standing.branch (standing : S.Standing state place m) (sound : S.Sound) {op : Opcode}
    {target : Nat} {x : Value} (here : S.quads[place]? = some ⟨op, i, 0, target⟩)
    (is : op.isConditional = true) (holds : m.program.symbols.Holds i x) (numeric : x.kind.Numeric) :
    ∃ next, m.Steps next ∧ next.program.symbols = m.program.symbols ∧
      S.Standing state (if op.taken x.signum then target else place + 1) next := by
  have does : Quad.action ⟨op, i, 0, target⟩ m.program.symbols = _ := Quad.action_of_conditional is
  rw [holds.value] at does
  change _ = (Outcome.ofAccess x.sign >>= _ : Outcome Action) at does
  rw [sign_eq numeric] at does
  change _ = Except.ok (if op.taken x.signum then Action.goto target else .next) at does
  cases taken : op.taken x.signum with
  | true =>
    rw [taken] at does
    obtain ⟨next, steps, standing', same⟩ := standing.goto sound here does
    exact ⟨next, steps, same, standing'⟩
  | false =>
    rw [taken] at does
    exact ⟨_, .next standing.within ((standing.intent here).trans does),
      congrArg Program.symbols m.program_ready, standing.ready sound⟩

/-- A result is a number. -/
theorem numeric_of_result {k j l : Nat} {x : Value} (made : S.table.Result k j l i)
    (alike : S.table.Alike symbols) (holds : symbols.Holds i x) : x.kind.Numeric := by
  obtain ⟨left, right, _, _, temporary⟩ := made.kinds
  have kind := holds.kindAt alike
  rw [SymbolTable.kindAt, temporary.cell] at kind
  have same : (Value.zero (arithmeticKind left right)).kind = x.kind := Option.some.inj kind
  rw [← same, Value.kind_zero (arithmeticKind_numeric left right)]
  exact arithmeticKind_numeric left right

/-- The machine decides a relation: its last step leads behind the jump if the relation holds, and where
the jump leads otherwise. -/
theorem relation_follows (sound : S.Sound) {r : Relation} {target : Nat} {rest : List Quad}
    {α : Type} {there : α → Machine → Prop} {f : Bool → Course α}
    (test : r.difference.Laid S.table lo hi code i) (drawn : r.DrawnFrom S.tokens)
    (has : S.Has place (code ++ ⟨r.comparison.falseJump, i, 0, target⟩ :: rest))
    (standing : S.Standing state place m)
    (goes : ∀ holds last next, last.Steps next → S.Arrives lo m.program.symbols
      (if holds then place + code.length + 1 else target) state next →
      S.Follows rounds last there (f holds)) :
    S.Follows rounds m there (state.attempt (r.eval S.naming.meaning state.store) >>= f) := by
  have decided : state.attempt (r.eval S.naming.meaning state.store) >>= f =
      state.attempt (r.difference.eval S.naming.meaning state.store) >>= fun difference =>
        f (r.comparison.holds difference.signum) := by
    rw [Relation.eval_eq]
    cases r.difference.eval S.naming.meaning state.store <;> rfl
  rw [decided]
  apply (simple_follows sound test drawn has.left standing).bind
  rintro difference last ⟨⟨standing, keeps⟩, holds⟩
  have numeric : difference.kind.Numeric := by
    cases test with
    | operation _ _ made => exact numeric_of_result made standing.represents.alike holds
  obtain ⟨next, steps, same, standing'⟩ :=
    standing.branch sound has.right.head (by cases r.comparison <;> rfl) holds numeric
  apply goes _ last next steps
  rw [taken_falseJump] at standing'
  rw [← same] at keeps
  cases decides : r.comparison.holds difference.signum with
  | true =>
    rw [decides] at standing'
    exact ⟨standing', keeps⟩
  | false =>
    rw [decides] at standing'
    exact ⟨standing', keeps⟩

end Setting

end MiniPascal
