import MiniPascal.Token.Basic
import MiniPascal.Value
import MiniPascal.Text.Fold
import Mathlib.Tactic.Common

/-! # The language: syntax trees and the grammar

The grammar is given as relations between a syntax tree, the tokens it is read from, and the tokens
that follow it. Each constructor is one production. Operators of the same rank group from the left.

A statement may be empty where `END` or `UNTIL` follows, and nowhere else. As it is written down, the
grammar lets an `ELSE` belong to any `IF` before it that has none. The parameter `nearest` narrows
this to the nearest such `IF`; every sentence of the wider grammar is one of the narrower grammar, with
another tree.
-/

namespace MiniPascal.Syntax

/-- The operators between two operands. -/
inductive Operator where
  | add
  | sub
  | mul
  | div
deriving DecidableEq

namespace Operator

/-- The token that an operator is written as. -/
def kind : Operator → TokenKind
  | add => .plus
  | sub => .minus
  | mul => .star
  | div => .slash

/-- Whether an operator stands between factors; the others stand between terms. -/
def multiplies : Operator → Bool
  | mul | div => true
  | add | sub => false

end Operator

/-- An expression. Variables and literals are given by their spelling. -/
inductive Expr where
  | literal (name : Text)
  | var (name : Text)
  | negated (e : Expr)
  | operation (op : Operator) (left right : Expr)

/-- The ways to compare two numbers. -/
inductive Comparison where
  | equal
  | notEqual
  | less
  | greater
  | lessEq
  | greaterEq
deriving DecidableEq

/-- The token that a comparison is written as. -/
def Comparison.kind : Comparison → TokenKind
  | equal => .equal
  | notEqual => .notEqual
  | less => .less
  | greater => .greater
  | lessEq => .lessEq
  | greaterEq => .greaterEq

/-- A comparison of two expressions. -/
structure Relation where
  left : Expr
  comparison : Comparison
  right : Expr

/-- A statement. -/
inductive Stmt where
  | empty
  | sequence (first second : Stmt)
  | assignment (target : Text) (source : Expr)
  | ifThen (test : Relation) (body : Stmt)
  | ifElse (test : Relation) (body other : Stmt)
  | whileLoop (test : Relation) (body : Stmt)
  | repeatLoop (body : Stmt) (test : Relation)
  | forLoop (counter : Text) (start limit : Expr) (down : Bool) (body : Stmt)
  | writeln (e : Expr)
  | readln (target : Text)

/-- A program: its name, the variables it declares, and its statements. -/
structure Program where
  name : Text
  declarations : List (Text × Kind)
  body : Stmt

/-! ## Names used as variables -/

/-- The variables in an expression. -/
def Expr.names : Expr → List Text
  | literal _ => []
  | var name => [name]
  | negated e => e.names
  | operation _ left right => left.names ++ right.names

/-- The variables in a relation. -/
def Relation.names (r : Relation) : List Text := r.left.names ++ r.right.names

/-- The variables in a statement. -/
def Stmt.names : Stmt → List Text
  | empty => []
  | sequence first second => first.names ++ second.names
  | assignment target source => target :: source.names
  | ifThen test body => test.names ++ body.names
  | ifElse test body other => test.names ++ (body.names ++ other.names)
  | whileLoop test body => test.names ++ body.names
  | repeatLoop body test => body.names ++ test.names
  | forLoop counter start limit _ body => counter :: (start.names ++ (limit.names ++ body.names))
  | writeln e => e.names
  | readln target => [target]

/-- A program declares a variable, whatever the case its name is written in. -/
def Program.Declares (p : Program) (name : Text) : Prop :=
  ∃ declared ∈ p.declarations, declared.1.SameName name

/-! ## Expressions -/

/-- The categories of expressions. -/
inductive ExprForm where
  | factor
  | term
  | simple
  /-- A simple expression or a text literal. -/
  | operand

/-- An expression of a category is spelled by the tokens at the front of `input`; `rest` follows. -/
inductive Expr.Spelled : ExprForm → Expr → (input rest : List Token) → Prop
  | number {t : Token} {rest : List Token}
      (is : t.kind = .integerLiteral ∨ t.kind = .realLiteral) :
      Spelled .factor (.literal t.text) (t :: rest) rest
  | var {t : Token} {rest : List Token} (is : t.kind = .identifier) :
      Spelled .factor (.var t.text) (t :: rest) rest
  | parenthesized {opening closing : Token} {input rest : List Token} {e : Expr}
      (opens : opening.kind = .leftParen) (inner : Spelled .simple e input (closing :: rest))
      (closes : closing.kind = .rightParen) :
      Spelled .factor e (opening :: input) rest
  | factor {input rest : List Token} {e : Expr} (inner : Spelled .factor e input rest) :
      Spelled .term e input rest
  | product {t : Token} {input middle rest : List Token} {l r : Expr} {op : Operator}
      (left : Spelled .term l input (t :: middle)) (is : t.kind = op.kind)
      (binds : op.multiplies = true) (right : Spelled .factor r middle rest) :
      Spelled .term (.operation op l r) input rest
  | term {input rest : List Token} {e : Expr} (inner : Spelled .term e input rest) :
      Spelled .simple e input rest
  | plus {sign : Token} {input rest : List Token} {e : Expr} (is : sign.kind = .plus)
      (inner : Spelled .term e input rest) : Spelled .simple e (sign :: input) rest
  | minus {sign : Token} {input rest : List Token} {e : Expr} (is : sign.kind = .minus)
      (inner : Spelled .term e input rest) : Spelled .simple (.negated e) (sign :: input) rest
  | sum {t : Token} {input middle rest : List Token} {l r : Expr} {op : Operator}
      (left : Spelled .simple l input (t :: middle)) (is : t.kind = op.kind)
      (binds : op.multiplies = false) (right : Spelled .term r middle rest) :
      Spelled .simple (.operation op l r) input rest
  | simple {input rest : List Token} {e : Expr} (inner : Spelled .simple e input rest) :
      Spelled .operand e input rest
  | text {t : Token} {rest : List Token} (is : t.kind = .textLiteral) :
      Spelled .operand (.literal t.text) (t :: rest) rest

theorem Expr.Spelled.shorter {form : ExprForm} {e : Expr} {input rest : List Token}
    (spelled : e.Spelled form input rest) : rest.length < input.length := by
  induction spelled with
  | number | var | text => simp
  | parenthesized _ _ _ ih =>
    simp only [List.length_cons] at *
    omega
  | factor _ ih | term _ ih | simple _ ih => exact ih
  | product _ _ _ _ ihLeft ihRight | sum _ _ _ _ ihLeft ihRight =>
    simp only [List.length_cons] at *
    omega
  | plus _ _ ih | minus _ _ ih =>
    simp only [List.length_cons]
    omega

/-- A relation is spelled by the tokens at the front of `input`; `rest` follows. -/
inductive Relation.Spelled : Relation → (input rest : List Token) → Prop
  | intro {t : Token} {input middle rest : List Token} {l r : Expr} {comparison : Comparison}
      (left : l.Spelled .simple input (t :: middle)) (is : t.kind = comparison.kind)
      (right : r.Spelled .simple middle rest) :
      Spelled ⟨l, comparison, r⟩ input rest

theorem Relation.Spelled.shorter {r : Relation} {input rest : List Token}
    (spelled : r.Spelled input rest) : rest.length < input.length := by
  obtain ⟨left, _, right⟩ := spelled
  have first := left.shorter
  have second := right.shorter
  simp only [List.length_cons] at first
  omega

/-! ## Statements -/

/-- The categories of statements. -/
inductive StmtForm where
  | one
  /-- Statements with semicolons between them. -/
  | many

/-- A statement of a category is spelled by the tokens at the front of `input`; `rest` follows.
`dangling` says that the statement ends with one that an `ELSE` could continue. -/
inductive Stmt.Spelled (nearest : Prop) :
    StmtForm → (dangling : Bool) → Stmt → (input rest : List Token) → Prop
  | empty {next : Token} {rest : List Token} (is : next.kind = .kwEnd ∨ next.kind = .kwUntil) :
      Spelled nearest .one false .empty (next :: rest) (next :: rest)
  | assignment {t assign : Token} {input rest : List Token} {e : Expr} (is : t.kind = .identifier)
      (assigns : assign.kind = .assign) (source : e.Spelled .operand input rest) :
      Spelled nearest .one false (.assignment t.text e) (t :: assign :: input) rest
  | block {first last : Token} {input rest : List Token} {s : Stmt} {d : Bool}
      (begins : first.kind = .kwBegin) (inner : Spelled nearest .many d s input (last :: rest))
      (ends : last.kind = .kwEnd) :
      Spelled nearest .one false s (first :: input) rest
  | ifThen {first thens : Token} {input middle rest : List Token} {r : Relation} {s : Stmt} {d : Bool}
      (is : first.kind = .kwIf) (test : r.Spelled input (thens :: middle))
      (isThen : thens.kind = .kwThen) (body : Spelled nearest .one d s middle rest) :
      Spelled nearest .one true (.ifThen r s) (first :: input) rest
  | ifElse {first thens elses : Token} {input middle after rest : List Token} {r : Relation}
      {s other : Stmt} {d d' : Bool}
      (is : first.kind = .kwIf) (test : r.Spelled input (thens :: middle))
      (isThen : thens.kind = .kwThen) (body : Spelled nearest .one d s middle (elses :: after))
      (own : nearest → d = false) (isElse : elses.kind = .kwElse)
      (otherwise : Spelled nearest .one d' other after rest) :
      Spelled nearest .one d' (.ifElse r s other) (first :: input) rest
  | whileLoop {first does : Token} {input middle rest : List Token} {r : Relation} {s : Stmt}
      {d : Bool} (is : first.kind = .kwWhile) (test : r.Spelled input (does :: middle))
      (isDo : does.kind = .kwDo) (body : Spelled nearest .one d s middle rest) :
      Spelled nearest .one d (.whileLoop r s) (first :: input) rest
  | repeatLoop {first untils : Token} {input middle rest : List Token} {r : Relation} {s : Stmt}
      {d : Bool} (is : first.kind = .kwRepeat)
      (body : Spelled nearest .many d s input (untils :: middle)) (isUntil : untils.kind = .kwUntil)
      (test : r.Spelled middle rest) :
      Spelled nearest .one false (.repeatLoop s r) (first :: input) rest
  | forLoop {first t assign way does : Token} {input middle after rest : List Token}
      {start limit : Expr} {down : Bool} {s : Stmt} {d : Bool} (is : first.kind = .kwFor)
      (counter : t.kind = .identifier) (assigns : assign.kind = .assign)
      (starts : start.Spelled .simple input (way :: middle))
      (direction : way.kind = if down then .kwDownto else .kwTo)
      (upTo : limit.Spelled .simple middle (does :: after)) (isDo : does.kind = .kwDo)
      (body : Spelled nearest .one d s after rest) :
      Spelled nearest .one d (.forLoop t.text start limit down s) (first :: t :: assign :: input) rest
  | writeln {first opening closing : Token} {input rest : List Token} {e : Expr}
      (is : first.kind = .kwWriteln) (opens : opening.kind = .leftParen)
      (value : e.Spelled .operand input (closing :: rest)) (closes : closing.kind = .rightParen) :
      Spelled nearest .one false (.writeln e) (first :: opening :: input) rest
  | readln {first opening t closing : Token} {rest : List Token} (is : first.kind = .kwReadln)
      (opens : opening.kind = .leftParen) (target : t.kind = .identifier)
      (closes : closing.kind = .rightParen) :
      Spelled nearest .one false (.readln t.text) (first :: opening :: t :: closing :: rest) rest
  | single {input rest : List Token} {s : Stmt} {d : Bool}
      (inner : Spelled nearest .one d s input rest) : Spelled nearest .many d s input rest
  | sequence {semicolon : Token} {input middle rest : List Token} {first second : Stmt} {d d' : Bool}
      (before : Spelled nearest .many d first input (semicolon :: middle))
      (is : semicolon.kind = .semicolon) (last : Spelled nearest .one d' second middle rest) :
      Spelled nearest .many d' (.sequence first second) input rest

namespace Stmt.Spelled

variable {nearest : Prop} {form : StmtForm} {d d' : Bool} {s s' : Stmt}
variable {input rest after : List Token}

theorem length_le (spelled : s.Spelled nearest form d input rest) : rest.length ≤ input.length := by
  induction spelled with
  | empty => exact Nat.le_refl _
  | assignment _ _ source =>
    have := source.shorter
    simp only [List.length_cons]
    omega
  | block _ _ _ ih =>
    simp only [List.length_cons] at *
    omega
  | ifThen _ test _ _ ih | whileLoop _ test _ _ ih =>
    have := test.shorter
    simp only [List.length_cons] at *
    omega
  | ifElse _ test _ _ _ _ _ ih ih' =>
    have := test.shorter
    simp only [List.length_cons] at *
    omega
  | repeatLoop _ _ _ test ih =>
    have := test.shorter
    simp only [List.length_cons] at *
    omega
  | forLoop _ _ _ start _ limit _ _ ih =>
    have := start.shorter
    have := limit.shorter
    simp only [List.length_cons] at *
    omega
  | writeln _ _ value =>
    have := value.shorter
    simp only [List.length_cons] at *
    omega
  | readln =>
    simp only [List.length_cons]
    omega
  | single _ ih => exact ih
  | sequence _ _ _ ih ih' =>
    simp only [List.length_cons] at *
    omega

/-- Without the rule for `ELSE` there are only more derivations. -/
theorem relax (spelled : s.Spelled nearest form d input rest) :
    s.Spelled False form d input rest := by
  induction spelled with
  | empty is => exact .empty is
  | assignment is assigns source => exact .assignment is assigns source
  | block begins _ ends ih => exact .block begins ih ends
  | ifThen is test isThen _ ih => exact .ifThen is test isThen ih
  | ifElse is test isThen _ _ isElse _ ih ih' =>
    exact .ifElse is test isThen ih False.elim isElse ih'
  | whileLoop is test isDo _ ih => exact .whileLoop is test isDo ih
  | repeatLoop is _ isUntil test ih => exact .repeatLoop is ih isUntil test
  | forLoop is counter assigns start direction limit isDo _ ih =>
    exact .forLoop is counter assigns start direction limit isDo ih
  | writeln is opens value closes => exact .writeln is opens value closes
  | readln is opens target closes => exact .readln is opens target closes
  | single _ ih => exact .single ih
  | sequence _ is _ ih ih' => exact .sequence ih is ih'

private theorem append_subset_append (names : List Text) {joined before other : List Text}
    (within : joined ⊆ before ++ other) : names ++ joined ⊆ names ++ before ++ other := by
  rw [List.append_assoc]
  exact List.append_subset.mpr
    ⟨List.subset_append_left .., List.Subset.trans within (List.subset_append_right ..)⟩

/-- An `ELSE` after a statement that ends with an open `IF` can be read as its continuation. -/
theorem absorb (spelled : s.Spelled True form d input rest) (one : form = .one)
    (dangles : d = true) {elses : Token} (same : rest = elses :: after)
    (isElse : elses.kind = .kwElse) {other : Stmt} {last : List Token}
    (otherwise : other.Spelled True .one d' after last) :
    ∃ (joined : Stmt) (d : Bool), joined.Spelled True .one d input last ∧
      joined.names ⊆ s.names ++ other.names := by
  induction spelled with
  | empty | assignment | block | repeatLoop | writeln | readln => cases dangles
  | single | sequence => cases one
  | @ifThen _ _ _ _ _ r s d is test isThen body ih =>
    subst same
    cases d with
    | false =>
      refine ⟨.ifElse r s other, d', .ifElse is test isThen body (fun _ => rfl) isElse otherwise, ?_⟩
      simp [Stmt.names]
    | true =>
      obtain ⟨joined, d, spelled, names⟩ := ih rfl rfl rfl
      exact ⟨.ifThen r joined, true, .ifThen is test isThen spelled, append_subset_append _ names⟩
  | @ifElse _ _ _ _ _ _ _ r s t _ _ is test isThen body own isElse' _ _ ih =>
    subst same
    obtain ⟨joined, d, spelled, names⟩ := ih rfl dangles rfl
    exact ⟨.ifElse r s joined, d, .ifElse is test isThen body own isElse' spelled,
      append_subset_append _ (append_subset_append _ names)⟩
  | @whileLoop _ _ _ _ _ r s d is test isDo _ ih =>
    subst same
    obtain ⟨joined, d, spelled, names⟩ := ih rfl dangles rfl
    exact ⟨.whileLoop r joined, d, .whileLoop is test isDo spelled, append_subset_append _ names⟩
  | @forLoop _ t _ _ _ _ _ _ _ start limit down s d is counter assigns starts way upTo isDo _ ih =>
    subst same
    obtain ⟨joined, d, spelled, names⟩ := ih rfl dangles rfl
    refine ⟨.forLoop t.text start limit down joined, d,
      .forLoop is counter assigns starts way upTo isDo spelled, ?_⟩
    have within := append_subset_append start.names (append_subset_append limit.names names)
    exact append_subset_append [t.text] within

private theorem append_subset_of_subsets {first second first' second' : List Text}
    (left : first ⊆ first') (right : second ⊆ second') : first ++ second ⊆ first' ++ second' :=
  List.append_subset.mpr
    ⟨List.Subset.trans left (List.subset_append_left ..),
      List.Subset.trans right (List.subset_append_right ..)⟩

/-- Every sentence can be read so that each `ELSE` belongs to the nearest `IF`. -/
theorem exists_nearest (spelled : s.Spelled nearest form d input rest) :
    ∃ (read : Stmt) (d : Bool), read.Spelled True form d input rest ∧ read.names ⊆ s.names := by
  induction spelled with
  | empty is => exact ⟨_, _, .empty is, List.Subset.refl _⟩
  | assignment is assigns source => exact ⟨_, _, .assignment is assigns source, List.Subset.refl _⟩
  | block begins _ ends ih =>
    obtain ⟨read, d, inner, names⟩ := ih
    exact ⟨_, _, .block begins inner ends, names⟩
  | ifThen is test isThen _ ih =>
    obtain ⟨read, d, body, names⟩ := ih
    exact ⟨_, _, .ifThen is test isThen body, append_subset_of_subsets (List.Subset.refl _) names⟩
  | ifElse is test isThen _ _ isElse _ ih ih' =>
    obtain ⟨read, d, body, names⟩ := ih
    obtain ⟨read', d', otherwise, names'⟩ := ih'
    cases d with
    | false =>
      refine ⟨_, _, .ifElse is test isThen body (fun _ => rfl) isElse otherwise, ?_⟩
      exact append_subset_of_subsets (List.Subset.refl _) (append_subset_of_subsets names names')
    | true =>
      -- the `ELSE` moves into the body, and what is left is an `IF` without one
      obtain ⟨joined, d, spelled, within⟩ := body.absorb rfl rfl rfl isElse otherwise
      refine ⟨_, _, .ifThen is test isThen spelled, ?_⟩
      exact append_subset_of_subsets (List.Subset.refl _)
        (List.Subset.trans within (append_subset_of_subsets names names'))
  | whileLoop is test isDo _ ih =>
    obtain ⟨read, d, body, names⟩ := ih
    exact ⟨_, _, .whileLoop is test isDo body, append_subset_of_subsets (List.Subset.refl _) names⟩
  | repeatLoop is _ isUntil test ih =>
    obtain ⟨read, d, body, names⟩ := ih
    exact ⟨_, _, .repeatLoop is body isUntil test, append_subset_of_subsets names (List.Subset.refl _)⟩
  | forLoop is counter assigns starts way upTo isDo _ ih =>
    obtain ⟨read, d, body, names⟩ := ih
    refine ⟨_, _, .forLoop is counter assigns starts way upTo isDo body, ?_⟩
    exact List.cons_subset_cons _ (append_subset_of_subsets (List.Subset.refl _)
      (append_subset_of_subsets (List.Subset.refl _) names))
  | writeln is opens value closes => exact ⟨_, _, .writeln is opens value closes, List.Subset.refl _⟩
  | readln is opens target closes =>
    exact ⟨_, _, .readln is opens target closes, List.Subset.refl _⟩
  | single _ ih =>
    obtain ⟨read, d, inner, names⟩ := ih
    exact ⟨_, _, .single inner, names⟩
  | sequence _ is _ ih ih' =>
    obtain ⟨read, d, before, names⟩ := ih
    obtain ⟨read', d', last, names'⟩ := ih'
    exact ⟨_, _, .sequence before is last, append_subset_of_subsets names names'⟩

end Stmt.Spelled

/-! ## Programs -/

/-- The kinds that variables are declared with, each with its word. -/
inductive TypeWord : TokenKind → Kind → Prop
  | integer : TypeWord .kwInteger .integer
  | real : TypeWord .kwFloat .real
  | text : TypeWord .kwString .text

/-- Identifiers with commas between them. -/
inductive NamesSpelled : List Text → (input rest : List Token) → Prop
  | single {t : Token} {rest : List Token} (is : t.kind = .identifier) :
      NamesSpelled [t.text] (t :: rest) rest
  | more {comma t : Token} {names : List Text} {input rest : List Token}
      (before : NamesSpelled names input (comma :: t :: rest)) (isComma : comma.kind = .comma)
      (is : t.kind = .identifier) :
      NamesSpelled (names ++ [t.text]) input rest

/-- Names with their common kind, one or more times. -/
inductive GroupsSpelled : List (Text × Kind) → (input rest : List Token) → Prop
  | single {colon word semicolon : Token} {names : List Text} {kind : Kind} {input rest : List Token}
      (group : NamesSpelled names input (colon :: word :: semicolon :: rest))
      (isColon : colon.kind = .colon) (is : TypeWord word.kind kind)
      (ends : semicolon.kind = .semicolon) :
      GroupsSpelled (names.map (·, kind)) input rest
  | more {colon word semicolon : Token} {declared : List (Text × Kind)} {names : List Text}
      {kind : Kind} {input middle rest : List Token}
      (group : NamesSpelled names input (colon :: word :: semicolon :: middle))
      (isColon : colon.kind = .colon) (is : TypeWord word.kind kind)
      (ends : semicolon.kind = .semicolon) (others : GroupsSpelled declared middle rest) :
      GroupsSpelled (names.map (·, kind) ++ declared) input rest

theorem GroupsSpelled.append {first second : List (Text × Kind)} {input middle rest : List Token}
    (before : GroupsSpelled first input middle) (after : GroupsSpelled second middle rest) :
    GroupsSpelled (first ++ second) input rest := by
  induction before with
  | single group isColon is ends => exact .more group isColon is ends after
  | more group isColon is ends _ ih =>
    rw [List.append_assoc]
    exact .more group isColon is ends (ih after)

/-- Any number of sections of declarations. -/
inductive SectionsSpelled : List (Text × Kind) → (input rest : List Token) → Prop
  | none {rest : List Token} : SectionsSpelled [] rest rest
  | more {word : Token} {declared groups : List (Text × Kind)} {input middle rest : List Token}
      (is : word.kind = .kwVar) (first : GroupsSpelled groups input middle)
      (others : SectionsSpelled declared middle rest) :
      SectionsSpelled (groups ++ declared) (word :: input) rest

theorem SectionsSpelled.append {first second : List (Text × Kind)} {input middle rest : List Token}
    (before : SectionsSpelled first input middle) (after : SectionsSpelled second middle rest) :
    SectionsSpelled (first ++ second) input rest := by
  induction before with
  | none => exact after
  | more is first _ ih =>
    rw [List.append_assoc]
    exact .more is first (ih after)

/-- A program is spelled by the tokens at the front of `input`; `rest` follows. -/
inductive Program.Spelled (nearest : Prop) : Program → (input rest : List Token) → Prop
  | intro {unit name semicolon begins ends period : Token} {input middle rest : List Token}
      {declarations : List (Text × Kind)} {body : Stmt} {d : Bool}
      (isUnit : unit.kind = .kwUnit) (is : name.kind = .identifier)
      (isSemicolon : semicolon.kind = .semicolon)
      (sections : SectionsSpelled declarations input (begins :: middle))
      (isBegin : begins.kind = .kwBegin)
      (statements : body.Spelled nearest .many d middle (ends :: period :: rest))
      (isEnd : ends.kind = .kwEnd) (isPeriod : period.kind = .period) :
      Spelled nearest ⟨name.text, declarations, body⟩ (unit :: name :: semicolon :: input) rest

theorem Program.Spelled.relax {nearest : Prop} {p : Program} {input rest : List Token}
    (spelled : p.Spelled nearest input rest) : p.Spelled False input rest := by
  obtain ⟨isUnit, is, isSemicolon, sections, isBegin, statements, isEnd, isPeriod⟩ := spelled
  exact .intro isUnit is isSemicolon sections isBegin statements.relax isEnd isPeriod

/-- Every program can be read so that each `ELSE` belongs to the nearest `IF`. -/
theorem Program.Spelled.exists_nearest {nearest : Prop} {p : Program} {input rest : List Token}
    (spelled : p.Spelled nearest input rest) :
    ∃ read : Program, read.Spelled True input rest ∧ read.name = p.name ∧
      read.declarations = p.declarations ∧ read.body.names ⊆ p.body.names := by
  obtain ⟨isUnit, is, isSemicolon, sections, isBegin, statements, isEnd, isPeriod⟩ := spelled
  obtain ⟨body, d, statements, names⟩ := statements.exists_nearest
  exact ⟨_, .intro isUnit is isSemicolon sections isBegin statements isEnd isPeriod, rfl, rfl, names⟩

end MiniPascal.Syntax
