import MiniPascal.Proofs.Compiler.Success
import MiniPascal.Proofs.Spelling

/-! # Expressions are compiled

What the grammar derives, the rules read, and they leave the code of the tree that was derived. The
derivations of terms and of simple expressions are left recursive while the rules repeat a step, so
the induction over a derivation is about what is left to repeat (`Rule.Chains`).

A rule reads as far as it can. Its result is the given tree only if what follows the phrase cannot
continue it; `firstKind` is what the rule looks at to see this.
-/

namespace MiniPascal

open Syntax

theorem Session.firstKind_ahead (s : Session) : firstKind s.ahead = s.look.kind := by
  by_cases ended : s.look.kind = .endOfInput
  · rw [ahead_of_end ended, ended]
    rfl
  · rw [ahead_of_more ended, firstKind_cons]

theorem Syntax.Operator.factorOperation_kind {op : Operator} (binds : op.multiplies = true) :
    Rule.factorOperation? op.kind = some op.opcode := by
  cases op <;> first | rfl | cases binds

theorem Syntax.Operator.termOperation_kind {op : Operator} (binds : op.multiplies = false) :
    Rule.termOperation? op.kind = some op.opcode ∧ Rule.factorOperation? op.kind = none := by
  cases op <;> first | exact ⟨rfl, rfl⟩ | cases binds

theorem Syntax.Operator.arithmetic_opcode (op : Operator) :
    op.opcode = .add ∨ op.opcode = .sub ∨ op.opcode = .mul ∨ op.opcode = .div := by
  cases op <;> simp [opcode]

theorem Syntax.Comparison.isJump_falseJump (comparison : Comparison) :
    comparison.falseJump.isJump = true := by
  cases comparison <;> rfl

theorem Syntax.Expr.Laid.lt_size {table : SymbolTable} (wf : table.WellFormed) {e : Expr}
    {lo hi i : Nat} {code : List Quad} (laid : e.Laid table lo hi code i) : i < table.size := by
  cases laid with
  | literal found | var found => exact wf.lookup_lt found
  | negated _ _ made | operation _ _ made =>
    obtain ⟨_, _, _, _, made⟩ := made.kinds
    exact SymbolTable.lt_size_of_cell made.cell

namespace Rule

open Session

variable {scope : Scope} {s t : Session} {e l r : Expr} {i j : Nat}
variable {token : Token} {input middle rest : List Token}

/-- The code of an expression was written, and `rest` is left to read. -/
def Leaves (e : Expr) (s : Session) (rest : List Token) (i : Nat) (t : Session) : Prop :=
  t.ahead = rest ∧ ∃ code, t.code = s.code ++ code ∧
    e.Laid t.symbols s.temporaries t.temporaries code i

theorem Leaves.blind (s : Session) (i : Nat) (t : Session) (journal : Journal) (depth : Nat)
    (journal' : Journal) (depth' : Nat) (leaves : Leaves e { s with journal, depth } rest i t) :
    Leaves e s rest i { t with journal := journal', depth := depth' } := leaves

/-- What a session before wrote as well, where nothing but tokens was read in between. -/
theorem Leaves.earlier {u : Session} (leaves : Leaves e t rest i u) (code : t.code = s.code)
    (temporaries : t.temporaries = s.temporaries) : Leaves e s rest i u := by
  obtain ⟨ahead, written, same, laid⟩ := leaves
  exact ⟨ahead, written, by rw [same, code], temporaries ▸ laid⟩

theorem Takes.literal {name : Text} (takes : Takes s name rest i t) :
    Leaves (.literal name) s rest i t :=
  ⟨takes.ahead, [], by rw [takes.code, List.append_nil], takes.temporaries ▸ .literal takes.found⟩

theorem Takes.var {name : Text} (takes : Takes s name rest i t) : Leaves (.var name) s rest i t :=
  ⟨takes.ahead, [], by rw [takes.code, List.append_nil], takes.temporaries ▸ .var takes.found⟩

/-- An operation on two values that were computed one after the other. -/
theorem binary_succeeds (op : Operator) {u : Session} (left : Leaves l s input i t)
    (later : Moves False t u) (right : Leaves r t rest j u) :
    Succeeds scope (arithmetic op.opcode i j) u (Leaves (.operation op l r) s rest) := by
  refine .of_orderly fun quote items orderly => ?_
  obtain ⟨_, code, same, laid⟩ := left
  obtain ⟨ahead, code', same', laid'⟩ := right
  have wf := orderly.valid.symbols
  have kept := laid.extend later.extends
  refine (arithmetic_succeeds op.arithmetic_opcode (kept.lt_size wf) (laid'.lt_size wf)).mono
    fun result v moves computes => ?_
  refine ⟨computes.ahead.trans ahead, code ++ (code' ++ [⟨op.opcode, i, j, result⟩]), ?_, ?_⟩
  · rw [computes.code, same', same, List.append_assoc, List.append_assoc]
  · rw [computes.temporaries]
    exact .operation (kept.extend moves.extends) (laid'.extend moves.extends) computes.cell

/-- One more operand is read where an operator stands. -/
theorem operation_succeeds {operation? : TokenKind → Option Opcode} {operand : Rule Nat}
    {op : Operator} (is : operation? token.kind = some op.opcode)
    (left : Leaves l s (token :: middle) i t)
    (right : ∀ u : Session, u.ahead = middle → Succeeds scope operand u (Leaves r u rest)) :
    Succeeds scope (operation operation? operand i) t fun found u =>
      ∃ j, found = some j ∧ Leaves (.operation op l r) s rest j u := by
  obtain ⟨here, _⟩ := look_of_ahead left.1
  refine .lookKind_bind ?_
  rw [here, is]
  refine .bind (advance_succeeds left.1) fun _ u moves same => ?_
  obtain ⟨rfl, ahead⟩ := same
  refine .bind (right _ ahead) fun j v moves' reads => ?_
  exact .bind (binary_succeeds op left (moves.trans moves') (reads.earlier rfl rfl))
    fun k w _ leaves => .of_pure ⟨k, rfl, leaves⟩

/-- Nothing more is read where no operator stands. -/
theorem operation_ends {operation? : TokenKind → Option Opcode} {operand : Rule Nat}
    (ends : operation? (firstKind t.ahead) = none) :
    Succeeds scope (operation operation? operand i) t fun found u => found = none ∧ u = t := by
  refine .lookKind_bind ?_
  rw [← firstKind_ahead, ends]
  exact .of_pure ⟨rfl, rfl⟩

/-- The operands of a chain of operations, read so far. -/
abbrev Operations (scope : Scope) (operation? : TokenKind → Option Opcode) (first operand : Rule Nat)
    (e : Expr) (s : Session) (rest : List Token) : Prop :=
  Chains scope (operation operation? operand) (do repeated (operation operation? operand) (← first)) s
    rest (Leaves e s rest)

theorem Operations.read {operation? : TokenKind → Option Opcode} {first operand : Rule Nat}
    (operations : Operations scope operation? first operand e s rest)
    (ends : operation? (firstKind rest) = none) :
    Succeeds scope (do repeated (operation operation? operand) (← first)) s (Leaves e s rest) :=
  operations.done fun _ _ _ leaves => operation_ends (leaves.1 ▸ ends)

/-- What reading a phrase of each form achieves, with at most `fuel` nested parentheses. -/
def Compiled (scope : Scope) (fuel : Nat) (s : Session) (rest : List Token) (e : Expr) :
    ExprForm → Prop
  | .factor => Succeeds scope (factor (expressionWithin fuel)) s (Leaves e s rest)
  | .term => Operations scope factorOperation? (factor (expressionWithin fuel))
      (factor (expressionWithin fuel)) e s rest
  | .simple => factorOperation? (firstKind rest) = none →
      Operations scope termOperation? (signedTerm (term (expressionWithin fuel)))
        (term (expressionWithin fuel)) e s rest
  | .operand => factorOperation? (firstKind rest) = none → termOperation? (firstKind rest) = none →
      Succeeds scope operand s (Leaves e s rest)

theorem term_succeeds {fuel : Nat} (ends : factorOperation? (firstKind rest) = none)
    (inner : ∀ s : Session, s.ahead = input → Compiled scope fuel s rest e .term)
    (tokens : s.ahead = input) :
    Succeeds scope (term (expressionWithin fuel)) s (Leaves e s rest) :=
  .traced (R := fun s => Leaves e s rest) Leaves.blind
    (fun s tokens => (inner s tokens).read ends) tokens

theorem simpleExpression_succeeds {fuel : Nat} (ends : factorOperation? (firstKind rest) = none)
    (ends' : termOperation? (firstKind rest) = none)
    (inner : ∀ s : Session, s.ahead = input → Compiled scope fuel s rest e .simple)
    (tokens : s.ahead = input) :
    Succeeds scope (simpleExpression (expressionWithin fuel)) s (Leaves e s rest) :=
  .traced (R := fun s => Leaves e s rest) Leaves.blind
    (fun s tokens => (inner s tokens ends).read ends') tokens

theorem signedTerm_succeeds {inner : Rule Nat} (plain : firstKind input ≠ .plus)
    (plain' : firstKind input ≠ .minus) (tokens : s.ahead = input)
    (reads : Succeeds scope inner s (Leaves e s rest)) :
    Succeeds scope (signedTerm inner) s (Leaves e s rest) := by
  rw [← tokens, firstKind_ahead] at plain plain'
  refine .lookKind_bind ?_
  split
  · contradiction
  · contradiction
  · exact reads

theorem signedTerm_plus {inner : Rule Nat} (tokens : s.ahead = token :: input)
    (is : token.kind = .plus)
    (reads : ∀ s : Session, s.ahead = input → Succeeds scope inner s (Leaves e s rest)) :
    Succeeds scope (signedTerm inner) s (Leaves e s rest) := by
  obtain ⟨here, _⟩ := look_of_ahead tokens
  refine .lookKind_bind ?_
  rw [here, is]
  refine .bind (advance_succeeds tokens) fun _ t _ same => ?_
  obtain ⟨rfl, ahead⟩ := same
  exact (reads _ ahead).mono fun i u _ leaves => leaves.earlier rfl rfl

theorem signedTerm_minus {inner : Rule Nat} (tokens : s.ahead = token :: input)
    (is : token.kind = .minus)
    (reads : ∀ s : Session, s.ahead = input → Succeeds scope inner s (Leaves e s rest)) :
    Succeeds scope (signedTerm inner) s (Leaves (.negated e) s rest) := by
  obtain ⟨here, _⟩ := look_of_ahead tokens
  refine .lookKind_bind ?_
  rw [here, is]
  refine .bind (advance_succeeds tokens) fun _ t _ same => ?_
  obtain ⟨rfl, ahead⟩ := same
  refine .bind (reads _ ahead) fun i u _ leaves => ?_
  obtain ⟨ahead, code, same, laid⟩ := leaves
  refine .bind (constant_succeeds (.inr rfl)) fun one v moves made => ?_
  obtain ⟨only, found⟩ := made
  refine .of_orderly fun quote items orderly => ?_
  have wf := orderly.valid.symbols
  have kept := laid.extend moves.extends
  refine (arithmetic_succeeds (.inr (.inr (.inl rfl))) (kept.lt_size wf) (wf.lookup_lt found)).mono
    fun result w moves' computes => ?_
  refine ⟨?_, code ++ [⟨.mul, i, one, result⟩], ?_, ?_⟩
  · rw [computes.ahead, only.ahead, ahead]
  · rw [computes.code, only.code, same, List.append_assoc]
    rfl
  · rw [computes.temporaries]
    have cell := computes.cell
    rw [only.temporaries] at cell ⊢
    exact .negated (kept.extend moves'.extends) (moves'.extends.lookup _ _ found) cell

/-- A term does not start with a sign. -/
theorem firstKind_of_spelled {form : ExprForm} (spelled : e.Spelled form input rest)
    (unsigned : form = .factor ∨ form = .term) :
    firstKind input ≠ .plus ∧ firstKind input ≠ .minus := by
  induction spelled with
  | number is => rcases is with is | is <;> simp [is]
  | var is => simp [is]
  | parenthesized opens => simp [opens]
  | factor _ ih => exact ih (.inl rfl)
  | product _ _ _ _ ih => exact ih (.inr rfl)
  | term | plus | minus | sum | simple | text => simp at unsigned

/-- Only an operand starts with a text. -/
theorem firstKind_of_simple {form : ExprForm} (spelled : e.Spelled form input rest)
    (inner : form ≠ .operand) : firstKind input ≠ .textLiteral := by
  induction spelled with
  | number is => rcases is with is | is <;> simp [is]
  | var is => simp [is]
  | parenthesized opens => simp [opens]
  | factor _ ih | term _ ih => exact ih (nofun)
  | product _ _ _ _ ih | sum _ _ _ _ ih => exact ih (nofun)
  | plus is | minus is => simp [is]
  | simple | text => contradiction

theorem expression_reads (ends : factorOperation? (firstKind rest) = none)
    (ends' : termOperation? (firstKind rest) = none)
    (inner : ∀ fuel (s : Session), input.length ≤ fuel → s.ahead = input →
      Compiled scope fuel s rest e .simple)
    (tokens : s.ahead = input) : Succeeds scope expression s (Leaves e s rest) := by
  have enough : input.length ≤ s.unread.length + 1 := tokens ▸ s.length_ahead_le
  refine .of_eq (expression_eq s) ?_
  exact .of_eq rfl (simpleExpression_succeeds ends ends' (fun s => inner _ s enough) tokens)

theorem literal_compiled {kind : TokenKind} (tokens : s.ahead = token :: rest)
    (is : token.kind = kind) (symbol : kind.hasSymbol = true) :
    Succeeds scope literal s (Leaves (.literal token.text) s rest) :=
  (literal_succeeds tokens (is ▸ symbol)).mono fun _ _ _ takes => takes.literal

theorem variable_compiled (tokens : s.ahead = token :: rest) (is : token.kind = .identifier)
    (allowed : scope.Allows token.text) :
    Succeeds scope variableUse s (Leaves (.var token.text) s rest) :=
  (variableUse_succeeds tokens is allowed).mono fun _ _ _ takes => takes.var

theorem factor_number (tokens : s.ahead = token :: rest)
    (is : token.kind = .integerLiteral ∨ token.kind = .realLiteral) {inner : Rule Nat} :
    Succeeds scope (factor inner) s (Leaves (.literal token.text) s rest) := by
  refine .traced (R := fun s => Leaves _ s rest) Leaves.blind (fun s tokens => ?_) tokens
  obtain ⟨rfl, _⟩ := look_of_ahead tokens
  refine .lookKind_bind ?_
  rcases is with is | is
  · rw [is]
    exact literal_compiled tokens is rfl
  · rw [is]
    exact literal_compiled tokens is rfl

theorem factor_variable (tokens : s.ahead = token :: rest) (is : token.kind = .identifier)
    (allowed : scope.Allows token.text) {inner : Rule Nat} :
    Succeeds scope (factor inner) s (Leaves (.var token.text) s rest) := by
  refine .traced (R := fun s => Leaves _ s rest) Leaves.blind (fun s tokens => ?_) tokens
  obtain ⟨rfl, _⟩ := look_of_ahead tokens
  refine .lookKind_bind ?_
  rw [is]
  exact variable_compiled tokens is allowed

theorem factor_parenthesized {closing : Token} (tokens : s.ahead = token :: input)
    (opens : token.kind = .leftParen) (closes : closing.kind = .rightParen) {inner : Rule Nat}
    (reads : ∀ s : Session, s.ahead = input →
      Succeeds scope inner s (Leaves e s (closing :: rest))) :
    Succeeds scope (factor inner) s (Leaves e s rest) := by
  refine .traced (R := fun s => Leaves _ s rest) Leaves.blind (fun s tokens => ?_) tokens
  obtain ⟨rfl, _⟩ := look_of_ahead tokens
  refine .lookKind_bind ?_
  rw [opens]
  refine .bind (advance_succeeds tokens) fun _ t _ same => ?_
  obtain ⟨rfl, ahead⟩ := same
  refine .bind (reads _ ahead) fun i u _ leaves => ?_
  obtain ⟨ahead', code, written, laid⟩ := leaves
  refine .bind (expect_succeeds ahead' closes) fun _ v moves same => .of_pure ?_
  obtain ⟨rfl, ahead''⟩ := same
  exact ⟨ahead'', code, written, laid.extend moves.extends⟩

/-- Every phrase that the grammar derives is compiled. -/
theorem spelled_compiled {form : ExprForm} (spelled : e.Spelled form input rest) {fuel : Nat}
    (enough : input.length ≤ fuel) (allowed : ∀ name ∈ e.names, scope.Allows name)
    (tokens : s.ahead = input) : Compiled scope fuel s rest e form := by
  induction spelled generalizing s fuel with
  | number is => exact factor_number tokens is
  | var is => exact factor_variable tokens is (allowed _ List.mem_cons_self)
  | @parenthesized _ _ input _ _ opens _ closes ih =>
    obtain _ | fuel := fuel
    · simp at enough
    have enough' : input.length ≤ fuel := by simpa using enough
    exact factor_parenthesized tokens opens closes fun s tokens =>
      .of_eq rfl (simpleExpression_succeeds (by simp [closes, factorOperation?])
        (by simp [closes, termOperation?]) (fun s tokens => ih enough' allowed tokens) tokens)
  | factor _ ih => exact .of_first (ih enough allowed tokens) fun _ _ leaves => leaves.1
  | @product _ _ middle _ _ _ _ left is binds right ih ih' =>
    have first := left.shorter
    have second := right.shorter
    simp only [List.length_cons] at first
    refine (ih enough (fun name used => allowed name (List.mem_append_left _ used)) tokens).more
      (fun i t _ leaves => operation_succeeds (is ▸ Operator.factorOperation_kind binds) leaves
        fun u tokens => ih' (by omega) (fun name used => allowed name (List.mem_append_right _ used))
          tokens) ?_
    simp only [List.length_cons]
    omega
  | term inner ih =>
    intro ends
    have unsigned := firstKind_of_spelled inner (.inr rfl)
    exact .of_first (signedTerm_succeeds unsigned.1 unsigned.2 tokens
      (term_succeeds ends (fun _ => ih enough allowed) tokens)) fun _ _ leaves => leaves.1
  | plus is _ ih =>
    intro ends
    have enough := Nat.le_of_succ_le enough
    exact .of_first (signedTerm_plus tokens is fun s =>
      term_succeeds ends fun _ => ih enough allowed) fun _ _ leaves => leaves.1
  | minus is _ ih =>
    intro ends
    have enough := Nat.le_of_succ_le enough
    exact .of_first (signedTerm_minus tokens is fun s =>
      term_succeeds ends fun _ => ih enough allowed) fun _ _ leaves => leaves.1
  | @sum _ _ middle _ _ _ _ left is binds right ih ih' =>
    intro ends
    have first := left.shorter
    have second := right.shorter
    simp only [List.length_cons] at first
    obtain ⟨adds, separates⟩ := Operator.termOperation_kind binds
    refine (ih enough (fun name used => allowed name (List.mem_append_left _ used)) tokens
      (by rwa [firstKind_cons, is])).more
      (fun i t _ leaves => operation_succeeds (is ▸ adds) leaves fun u => term_succeeds ends fun _ =>
        ih' (by omega) fun name used => allowed name (List.mem_append_right _ used)) ?_
    simp only [List.length_cons]
    omega
  | simple inner ih =>
    intro ends ends'
    have plain := firstKind_of_simple inner (nofun)
    rw [← tokens, firstKind_ahead] at plain
    refine .lookKind_bind ?_
    rw [if_neg plain]
    exact expression_reads ends ends' (fun _ _ enough => ih enough allowed) tokens
  | text is =>
    intro _ _
    obtain ⟨here, _⟩ := look_of_ahead tokens
    refine .lookKind_bind ?_
    rw [here, if_pos is]
    exact literal_compiled tokens is rfl

/-- An expression ends where none of the operators follows. -/
def Ends (rest : List Token) : Prop :=
  factorOperation? (firstKind rest) = none ∧ termOperation? (firstKind rest) = none

theorem expression_succeeds (spelled : e.Spelled .simple input rest) (ends : Ends rest)
    (allowed : ∀ name ∈ e.names, scope.Allows name) (tokens : s.ahead = input) :
    Succeeds scope expression s (Leaves e s rest) :=
  expression_reads ends.1 ends.2 (fun _ _ enough => spelled_compiled spelled enough allowed) tokens

theorem operand_succeeds (spelled : e.Spelled .operand input rest) (ends : Ends rest)
    (allowed : ∀ name ∈ e.names, scope.Allows name) (tokens : s.ahead = input) :
    Succeeds scope operand s (Leaves e s rest) :=
  spelled_compiled spelled (Nat.le_refl _) allowed tokens ends.1 ends.2

/-! ## Relations -/

theorem falseJump_kind (comparison : Comparison) :
    falseJump? comparison.kind = some comparison.falseJump := by
  cases comparison <;> rfl

theorem ends_of_comparison {comparison : Comparison} (is : token.kind = comparison.kind) :
    Ends (token :: rest) := by
  unfold Ends
  rw [firstKind_cons, is]
  cases comparison <;> exact ⟨rfl, rfl⟩

/-- The code of a relation was written, with a jump that has no target yet at the quad `i`. -/
def Tests (r : Relation) (s : Session) (rest : List Token) (i : Nat) (t : Session) : Prop :=
  t.ahead = rest ∧ ∃ code cell, i = (s.code ++ code).length ∧
    t.code = s.code ++ code ++ [⟨r.comparison.falseJump, cell, 0, unknownTarget⟩] ∧
    r.difference.Laid t.symbols s.temporaries t.temporaries code cell

theorem relExpression_succeeds {r : Relation} (spelled : r.Spelled input rest) (ends : Ends rest)
    (allowed : ∀ name ∈ r.names, scope.Allows name) (tokens : s.ahead = input) :
    Succeeds scope relExpression s (Tests r s rest) := by
  obtain @⟨token, _, middle, _, l, r, comparison, left, is, right⟩ := spelled
  refine .traced (R := fun s => Tests ⟨l, comparison, r⟩ s rest)
    (fun _ _ _ _ _ _ _ tests => tests) (fun s tokens => ?_) tokens
  refine .bind (expression_succeeds left (ends_of_comparison is)
    (fun name used => allowed name (List.mem_append_left _ used)) tokens) fun i t moves leaves => ?_
  obtain ⟨here, _⟩ := look_of_ahead leaves.1
  refine .lookKind_bind ?_
  rw [here, is, falseJump_kind]
  refine .bind (advance_succeeds leaves.1) fun _ u moves' same => ?_
  obtain ⟨rfl, ahead⟩ := same
  refine .bind (expression_succeeds right ends
    (fun name used => allowed name (List.mem_append_right _ used)) ahead) fun j v moves'' leaves' => ?_
  have later : Moves False t v := moves'.trans moves''
  refine .bind (binary_succeeds .sub leaves later (leaves'.earlier rfl rfl))
    fun k w _ difference => ?_
  refine .of_orderly fun quote items orderly => ?_
  obtain ⟨ahead', code, written, laid⟩ := difference
  have bound := laid.lt_size orderly.valid.symbols
  refine (emit_succeeds (wellFormed_conditional comparison.isJump_falseJump _ bound) fun stores => ?_).mono
    fun n x _ emits => ?_
  · exact absurd stores (by cases comparison <;> decide)
  refine ⟨emits.ahead.trans ahead', code, k, ?_, by rw [emits.code, written], ?_⟩
  · rw [emits.index, written]
  · rw [emits.symbols, emits.temporaries]
    exact laid

end Rule

end MiniPascal
