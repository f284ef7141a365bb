import MiniPascal.Proofs.Compiler.Outcomes
import MiniPascal.Proofs.Layout

/-! # What a compilation without errors has read

A rule that returns, in a session without errors, has read a phrase of the grammar, and every
variable in it may be used as one. Whether or not there were errors, a rule for values returns a
cell that exists, and a rule for relations returns the position of a jump.
-/

namespace MiniPascal

/-- A name has a cell that does not hold the name of the program. -/
def SymbolTable.Usable (table : SymbolTable) (name : Text) : Prop :=
  ∃ (i : Nat) (cell : Cell), table.lookup? name = some i ∧ table.cells[i]? = some cell ∧
    cell.usage ≠ .program

theorem SymbolTable.Usable.extend {table more : SymbolTable} {name : Text} (usable : table.Usable name)
    (extend : table.Extends more) : more.Usable name := by
  obtain ⟨i, cell, found, here, usage⟩ := usable
  exact ⟨i, cell, extend.lookup name i found, extend.cells i cell here, usage⟩

namespace Rule

open Session Syntax

variable {declaring : Prop} {s : Session}

theorem factorOperation?_eq_some {kind : TokenKind} {op : Opcode} (is : factorOperation? kind = some op) :
    ∃ o : Operator, o.multiplies = true ∧ kind = o.kind ∧ op = o.opcode := by
  unfold factorOperation? at is
  split at is
  · exact ⟨.mul, rfl, rfl, (Option.some.inj is).symm⟩
  · exact ⟨.div, rfl, rfl, (Option.some.inj is).symm⟩
  · cases is

theorem termOperation?_eq_some {kind : TokenKind} {op : Opcode} (is : termOperation? kind = some op) :
    ∃ o : Operator, o.multiplies = false ∧ kind = o.kind ∧ op = o.opcode := by
  unfold termOperation? at is
  split at is
  · exact ⟨.add, rfl, rfl, (Option.some.inj is).symm⟩
  · exact ⟨.sub, rfl, rfl, (Option.some.inj is).symm⟩
  · cases is

theorem falseJump?_eq_some {kind : TokenKind} {op : Opcode} (is : falseJump? kind = some op) :
    ∃ comparison : Comparison, kind = comparison.kind ∧ op = comparison.falseJump := by
  unfold falseJump? at is
  split at is
  · exact ⟨.equal, rfl, (Option.some.inj is).symm⟩
  · exact ⟨.notEqual, rfl, (Option.some.inj is).symm⟩
  · exact ⟨.less, rfl, (Option.some.inj is).symm⟩
  · exact ⟨.greater, rfl, (Option.some.inj is).symm⟩
  · exact ⟨.lessEq, rfl, (Option.some.inj is).symm⟩
  · exact ⟨.greaterEq, rfl, (Option.some.inj is).symm⟩
  · cases is

/-! ## Names and literals -/

theorem registered_does (more : s.look.kind ≠ .endOfInput) :
    Does declaring registered s fun i t =>
      s.symbols.lookup? s.look.text = some i ∧ t = s.advance := by
  refine .get_bind ?_
  split
  · rename_i i found
    exact .bind (.of_advance more) fun _ t _ _ same => .of_pure ⟨found, same⟩
  · exact .of_failFull _

theorem identifier_does :
    Does declaring identifier s fun i t => s.look.kind = .identifier ∧ s.look.text.IsWord ∧
      s.symbols.lookup? s.look.text = some i ∧ t = s.advance := by
  refine .lookKind_bind ?_
  split
  · rename_i is
    exact (registered_does (by simp [is])).mono fun _ _ valid _ here => ⟨is, valid.words.look is, here⟩
  · exact .of_failExpecting _

/-- One token of a kind was read, and a cell returned. -/
def ReadsToken (s : Session) (i : Nat) (t : Session) : Prop :=
  i < t.symbols.size ∧ s.ahead = s.look :: t.ahead

/-- A variable was read, and its cell returned. -/
def ReadsVariable (s : Session) (i : Nat) (t : Session) : Prop :=
  ReadsToken s i t ∧ s.look.kind = .identifier ∧ t.symbols.Usable s.look.text ∧ t.symbols.Assignable i

theorem literal_does (more : s.look.kind ≠ .endOfInput) :
    Does False literal s (ReadsToken s) := by
  refine Does.traced (P := fun s => s.look.kind ≠ .endOfInput) (fun _ _ _ _ _ _ _ read => read)
    (fun _ _ _ more => more) (fun s more => ?_) more
  refine (registered_does more).mono fun i t valid moves here => ?_
  obtain ⟨found, rfl⟩ := here
  exact ⟨Nat.lt_of_lt_of_le (valid.symbols.lookup_lt found) moves.size_le, ahead_eq_cons more⟩

theorem variableUse_does : Does False variableUse s (ReadsVariable s) := by
  refine Does.traced (P := fun _ => True) (fun _ _ _ _ _ _ _ read => read)
    (fun _ _ _ _ => trivial) (fun s _ => ?_) trivial
  refine .get_bind (.bind identifier_does fun i t moves valid here => ?_)
  obtain ⟨is, word, found, rfl⟩ := here
  have more : s.look.kind ≠ .endOfInput := by simp [is]
  have found := moves.extends.lookup _ _ found
  obtain ⟨cell, here⟩ := SymbolTable.exists_cell (valid.symbols.lookup_lt found)
  refine .bind (.of_ask (SymbolTable.usage_of_cell here)) fun usage t _ _ same => ?_
  obtain ⟨rfl, rfl⟩ := same
  have read : cell.usage ≠ .program → ReadsVariable s i s.advance := fun other =>
    ⟨⟨valid.symbols.lookup_lt found, ahead_eq_cons more⟩, is, ⟨i, cell, found, here, other⟩,
      .word word found⟩
  split
  · exact .of_fail _
  · rename_i other
    refine .get_bind ?_
    split
    · refine .bind (.of_set (.observe _ _ _ _ _)) fun _ t _ _ same => .of_pure ?_
      subst same
      exact read other
    · exact .of_pure (read other)

/-! ## Expressions -/

/-- An expression of a category was read, and the cell of its value returned. -/
def ReadsExpr (form : ExprForm) (s : Session) (i : Nat) (t : Session) : Prop :=
  i < t.symbols.size ∧ (t.Clean → ∃ e : Expr, e.Spelled form s.ahead t.ahead ∧
    ∀ name ∈ e.names, t.symbols.Usable name)

/-- What was read stays good. -/
theorem ReadsExpr.later {form : ExprForm} {i : Nat} {t u : Session} (read : ReadsExpr form s i t)
    (valid : t.Valid) (moves : Moves False t u) (clean : u.Clean) :
    ∃ e : Expr, e.Spelled form s.ahead t.ahead ∧ ∀ name ∈ e.names, u.symbols.Usable name := by
  obtain ⟨e, spelled, usable⟩ := read.2 (moves.clean valid clean)
  exact ⟨e, spelled, fun name member => (usable name member).extend moves.extends⟩

theorem factor_does {expression : Rule Nat}
    (inner : ∀ s, Does False expression s (ReadsExpr .simple s)) (s : Session) :
    Does False (factor expression) s (ReadsExpr .factor s) := by
  refine Does.traced (P := fun _ => True) (fun _ _ _ _ _ _ _ read => read)
    (fun _ _ _ _ => trivial) (fun s _ => ?_) trivial
  have number (is : s.look.kind = .integerLiteral ∨ s.look.kind = .realLiteral) :
      Does False literal s (ReadsExpr .factor s) := by
    refine (literal_does (by rcases is with is | is <;> simp [is])).mono fun i t _ _ read => ?_
    refine ⟨read.1, fun _ => ⟨.literal s.look.text, ?_, by simp [Expr.names]⟩⟩
    rw [read.2]
    exact .number is
  refine .lookKind_bind ?_
  split
  · rename_i is
    exact number (.inl is)
  · rename_i is
    exact number (.inr is)
  · rename_i is
    refine variableUse_does.mono fun i t _ _ read => ?_
    refine ⟨read.1.1, fun _ => ⟨.var s.look.text, ?_, ?_⟩⟩
    · rw [read.1.2]
      exact .var is
    · simpa [Expr.names] using read.2.2.1
  · rename_i is
    have more : s.look.kind ≠ .endOfInput := by simp [is]
    refine .bind (.of_advance more) fun _ t _ _ same => ?_
    subst same
    refine .bind (inner _) fun v t _ valid read => ?_
    refine .bind (.of_expect _ nofun) fun _ u moves _ here => .of_pure ?_
    obtain ⟨closes, rfl⟩ := here
    refine ⟨Nat.lt_of_lt_of_le read.1 moves.size_le, fun clean => ?_⟩
    obtain ⟨e, spelled, usable⟩ := read.later valid moves clean
    refine ⟨e, ?_, usable⟩
    rw [ahead_eq_cons (s := t) (by simp [closes])] at spelled
    rw [ahead_eq_cons more]
    exact .parenthesized is spelled closes
  · exact .of_failExpecting _

/-- One more operation after an operand: the operator and its right side were read. -/
theorem operation_does {operation? : TokenKind → Option Opcode} {multiplies : Bool}
    (spells : ∀ kind op, operation? kind = some op →
      ∃ o : Operator, o.multiplies = multiplies ∧ kind = o.kind ∧ op = o.opcode)
    {operand : Rule Nat} {form : ExprForm} (inner : ∀ s, Does False operand s (ReadsExpr form s))
    {left : Nat} (bound : left < s.symbols.size) :
    Does False (operation operation? operand left) s fun more t =>
      match more with
      | none => t = s
      | some result => result < t.symbols.size ∧ (t.Clean → ∃ (o : Operator) (right : Expr),
          o.multiplies = multiplies ∧ s.look.kind = o.kind ∧
            right.Spelled form s.advance.ahead t.ahead ∧
              ∀ name ∈ right.names, t.symbols.Usable name) := by
  refine .lookKind_bind ?_
  split
  · exact .of_pure rfl
  · rename_i op spelling
    obtain ⟨o, ranks, is, rfl⟩ := spells _ _ spelling
    have more : s.look.kind ≠ .endOfInput := by rw [is]; cases o <;> nofun
    refine .bind (.of_advance more) fun _ t moves _ same => ?_
    subst same
    refine .bind (inner _) fun right t moves' valid read => ?_
    have arithmetic : o.opcode = .add ∨ o.opcode = .sub ∨ o.opcode = .mul ∨ o.opcode = .div := by
      cases o <;> simp [Operator.opcode]
    have bound := Nat.lt_of_lt_of_le bound (moves.trans moves').size_le
    refine .bind (arithmetic_does arithmetic bound read.1) fun result u moves'' _ here => .of_pure ?_
    refine ⟨here.1, fun clean => ?_⟩
    obtain ⟨e, spelled, usable⟩ := read.later valid moves'' clean
    rw [here.2]
    exact ⟨o, e, ranks, is, spelled, usable⟩

/-- Operands with operators between them, when each further one makes a longer expression. -/
theorem operations_does {operation? : TokenKind → Option Opcode} {multiplies : Bool}
    (spells : ∀ kind op, operation? kind = some op →
      ∃ o : Operator, o.multiplies = multiplies ∧ kind = o.kind ∧ op = o.opcode)
    {operand : Rule Nat} {form whole : ExprForm}
    (inner : ∀ s, Does False operand s (ReadsExpr form s))
    (longer : ∀ {t : Token} {input middle rest : List Token} {l r : Expr} {op : Operator},
      l.Spelled whole input (t :: middle) → t.kind = op.kind → op.multiplies = multiplies →
        r.Spelled form middle rest → (Expr.operation op l r).Spelled whole input rest)
    {t : Session} {first : Nat} (read : ReadsExpr whole s first t) :
    Does False (repeated (operation operation? operand) first) t (ReadsExpr whole s) := by
  refine .repeated (I := ReadsExpr whole s) (fun left t read => ?_) read
  refine (operation_does spells inner read.1).mono fun more u valid moves here => ?_
  cases more with
  | none => exact here ▸ read
  | some result =>
    refine ⟨here.1, fun clean => ?_⟩
    obtain ⟨o, r, ranks, is, right, usable'⟩ := here.2 clean
    obtain ⟨l, left, usable⟩ := read.later valid moves clean
    have more : t.look.kind ≠ .endOfInput := by rw [is]; cases o <;> nofun
    rw [ahead_eq_cons more] at left
    refine ⟨.operation o l r, longer left is ranks right, fun name member => ?_⟩
    obtain member | member := List.mem_append.mp member
    · exact usable name member
    · exact usable' name member

theorem ReadsExpr.mono {form form' : ExprForm} {i : Nat} {t : Session} (read : ReadsExpr form s i t)
    (imp : ∀ e : Expr, e.Spelled form s.ahead t.ahead → e.Spelled form' s.ahead t.ahead) :
    ReadsExpr form' s i t := by
  refine ⟨read.1, fun clean => ?_⟩
  obtain ⟨e, spelled, usable⟩ := read.2 clean
  exact ⟨e, imp e spelled, usable⟩

theorem term_does {expression : Rule Nat}
    (inner : ∀ s, Does False expression s (ReadsExpr .simple s)) (s : Session) :
    Does False (term expression) s (ReadsExpr .term s) := by
  refine Does.traced (P := fun _ => True) (fun _ _ _ _ _ _ _ read => read)
    (fun _ _ _ _ => trivial) (fun s _ => ?_) trivial
  refine .bind (factor_does inner s) fun first t _ _ read => ?_
  exact operations_does (fun _ _ => factorOperation?_eq_some) (factor_does inner) .product
    (read.mono fun _ => .factor)

theorem signedTerm_does {term : Rule Nat} (inner : ∀ s, Does False term s (ReadsExpr .term s))
    (s : Session) : Does False (signedTerm term) s (ReadsExpr .simple s) := by
  refine .lookKind_bind ?_
  split
  · rename_i is
    have more : s.look.kind ≠ .endOfInput := by simp [is]
    refine .bind (.of_advance more) fun _ t _ _ same => ?_
    subst same
    refine (inner _).mono fun v t _ _ read => ⟨read.1, fun clean => ?_⟩
    obtain ⟨e, spelled, usable⟩ := read.2 clean
    rw [ahead_eq_cons more]
    exact ⟨e, .plus is spelled, usable⟩
  · rename_i is
    have more : s.look.kind ≠ .endOfInput := by simp [is]
    refine .bind (.of_advance more) fun _ t _ _ same => ?_
    subst same
    refine .bind (inner _) fun v t _ valid read => ?_
    refine .bind (constant_does (.inr rfl)) fun one u moves _ made => ?_
    have bound := Nat.lt_of_lt_of_le read.1 moves.size_le
    refine (arithmetic_does (by simp) bound made.1).mono fun result w _ moves' here => ?_
    refine ⟨here.1, fun clean => ?_⟩
    obtain ⟨e, spelled, usable⟩ := read.later valid (moves.trans moves') clean
    rw [ahead_eq_cons more, here.2, made.2]
    exact ⟨.negated e, .minus is spelled, usable⟩
  · exact (inner s).mono fun v t _ _ read => read.mono fun _ => .term

theorem simpleExpression_does {expression : Rule Nat}
    (inner : ∀ s, Does False expression s (ReadsExpr .simple s)) (s : Session) :
    Does False (simpleExpression expression) s (ReadsExpr .simple s) := by
  refine Does.traced (P := fun _ => True) (fun _ _ _ _ _ _ _ read => read)
    (fun _ _ _ _ => trivial) (fun s _ => ?_) trivial
  refine .bind (signedTerm_does (term_does inner) s) fun first t _ _ read => ?_
  exact operations_does (fun _ _ => termOperation?_eq_some) (term_does inner) .sum read

theorem expressionWithin_does (fuel : Nat) :
    ∀ s, Does False (expressionWithin fuel) s (ReadsExpr .simple s) := by
  induction fuel with
  | zero => exact fun _ => .of_outOfFuel
  | succ fuel ih => exact fun s => simpleExpression_does ih s

theorem expression_does : Does False expression s (ReadsExpr .simple s) :=
  .of_eq (expression_eq s) (expressionWithin_does _ s)

theorem operand_does : Does False operand s (ReadsExpr .operand s) := by
  refine .lookKind_bind ?_
  split
  · rename_i is
    refine (literal_does (by simp [is])).mono fun i t _ _ read => ?_
    refine ⟨read.1, fun _ => ⟨.literal s.look.text, ?_, by simp [Expr.names]⟩⟩
    rw [read.2]
    exact .text is
  · exact expression_does.mono fun v t _ _ read => read.mono fun _ => .simple

/-- A relation was read, and the position of its jump returned. -/
def ReadsRelation (s : Session) (i : Nat) (t : Session) : Prop :=
  t.JumpAt i ∧ (t.Clean → ∃ r : Relation, r.Spelled s.ahead t.ahead ∧
    ∀ name ∈ r.names, t.symbols.Usable name)

theorem ReadsRelation.later {i : Nat} {t u : Session} (read : ReadsRelation s i t) (valid : t.Valid)
    (moves : Moves False t u) (clean : u.Clean) :
    ∃ r : Relation, r.Spelled s.ahead t.ahead ∧ ∀ name ∈ r.names, u.symbols.Usable name := by
  obtain ⟨r, spelled, usable⟩ := read.2 (moves.clean valid clean)
  exact ⟨r, spelled, fun name member => (usable name member).extend moves.extends⟩

theorem jumpAt_emitted {q : Quad} (room : s.quads.size < s.quads.capacity) (jump : q.op.isJump = true) :
    JumpAt { s with quads := s.quads.add q } s.quads.size := by
  refine ⟨q, ?_, jump⟩
  change (s.quads.add q).code[s.quads.size]? = some q
  rw [QuadTable.code_add room]
  exact List.getElem?_concat_length

/-- A conditional jump with a target still to come. -/
theorem wellFormed_conditional {op : Opcode} (jump : op.isJump = true) {a cells : Nat} (c : Int)
    (bound : a < cells) : Quad.WellFormed cells ⟨op, a, 0, c⟩ := by
  have field : ∀ field ∈ [(a : Int)], 0 ≤ field ∧ field < cells := by
    simp
    omega
  cases op with
  | jmp => exact ⟨rfl, nofun⟩
  | jz | jp | jn | jnz | jnp | jnn => exact ⟨rfl, field⟩
  | _ => cases jump

theorem relExpression_does : Does False relExpression s (ReadsRelation s) := by
  refine Does.traced (P := fun _ => True) (fun _ _ _ _ _ _ _ read => read)
    (fun _ _ _ _ => trivial) (fun s _ => ?_) trivial
  refine .bind expression_does fun left t _ valid read => .lookKind_bind ?_
  split
  · exact .of_failExpecting _
  · rename_i jump decides
    obtain ⟨comparison, is, rfl⟩ := falseJump?_eq_some decides
    have jumps : comparison.falseJump.isJump = true := by cases comparison <;> rfl
    have more : t.look.kind ≠ .endOfInput := by rw [is]; cases comparison <;> nofun
    refine .bind (.of_advance more) fun _ u moves valid' same => ?_
    subst same
    refine .bind expression_does fun right u moves' valid' read' => ?_
    have bound := Nat.lt_of_lt_of_le read.1 (moves.trans moves').size_le
    refine .bind (arithmetic_does (by simp) bound read'.1) fun difference w moves'' _ made => ?_
    have wf := wellFormed_conditional jumps unknownTarget made.1
    refine (emit_does wf fun stores => ?_).mono fun i x _ last here => ?_
    · exact absurd stores (by cases comparison <;> decide)
    obtain ⟨rfl, room, rfl⟩ := here
    refine ⟨jumpAt_emitted room jumps, fun clean => ?_⟩
    have path := moves''.trans last
    obtain ⟨r, spelled', usable'⟩ := read'.later valid' path clean
    obtain ⟨l, spelled, usable⟩ := read.later valid ((moves.trans moves').trans path) clean
    rw [ahead_eq_cons more] at spelled
    refine ⟨⟨l, comparison, r⟩, .intro spelled is ?_, fun name member => ?_⟩
    · exact made.2 ▸ spelled'
    · obtain member | member := List.mem_append.mp member
      · exact usable name member
      · exact usable' name member

end Rule

end MiniPascal
