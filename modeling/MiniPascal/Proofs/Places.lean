import MiniPascal.Proofs.Layout
import MiniPascal.Proofs.Spelling

/-! # Where the code of a statement stands

The number of quads of a phrase does not depend on where they stand or which cells they use. So the
place of each statement within a statement can be told from the tree, and the code of the inner one is
found there.
-/

namespace MiniPascal.Syntax

/-- The number of quads of an expression. -/
def Expr.size : Expr → Nat
  | literal _ | var _ => 0
  | negated e => e.size + 1
  | operation _ left right => left.size + right.size + 1

/-- The number of quads of a relation and its jump. -/
def Relation.size (r : Relation) : Nat := r.left.size + r.right.size + 2

/-- The number of quads of a statement. -/
def Stmt.size : Stmt → Nat
  | empty => 0
  | sequence first second => first.size + second.size
  | assignment _ source => source.size + 1
  | ifThen test body => test.size + body.size
  | ifElse test body other => test.size + body.size + 1 + other.size
  | whileLoop test body => test.size + body.size + 1
  | repeatLoop body test => body.size + test.size
  | forLoop _ start limit _ body => start.size + limit.size + 4 + body.size + 3
  | writeln e => e.size + 1
  | readln _ => 1

/-- The statements within a statement, itself among them, with the places of their first quads. -/
def Stmt.parts (base : Nat) (s : Stmt) : List (Nat × Stmt) :=
  (base, s) :: match s with
    | empty | assignment _ _ | writeln _ | readln _ => []
    | sequence first second => first.parts base ++ second.parts (base + first.size)
    | ifThen test body => body.parts (base + test.size)
    | ifElse test body other =>
      body.parts (base + test.size) ++ other.parts (base + test.size + body.size + 1)
    | whileLoop test body => body.parts (base + test.size)
    | repeatLoop body _ => body.parts base
    | forLoop _ start limit _ body => body.parts (base + start.size + limit.size + 4)

variable {table : SymbolTable} {tokens : List Token} {lo hi base : Nat} {code : List Quad}

theorem Expr.Laid.length {e : Expr} {i : Nat} (laid : e.Laid table lo hi code i) :
    code.length = e.size := by
  induction laid with
  | literal | var => rfl
  | negated _ _ _ ih => rw [List.length_append, ih, Expr.size, List.length_singleton]
  | operation _ _ _ ih ih' =>
    rw [List.length_append, List.length_append, ih, ih', Expr.size, List.length_singleton, Nat.add_assoc]

theorem Relation.length {r : Relation} {i : Nat} (test : r.difference.Laid table lo hi code i) :
    code.length + 1 = r.size := by
  rw [test.length]
  rfl

theorem Stmt.Laid.length {s : Stmt} (laid : s.Laid table lo hi base code) : code.length = s.size := by
  induction laid with
  | empty | readln => rfl
  | sequence _ _ ih ih' => rw [List.length_append, ih, ih', Stmt.size]
  | assignment _ source => rw [List.length_append, source.length, Stmt.size, List.length_singleton]
  | ifThen test _ ih =>
    have size := Relation.length test
    simp only [List.length_append, List.length_cons, Stmt.size]
    omega
  | ifElse test _ _ ih ih' =>
    have size := Relation.length test
    simp only [List.length_append, List.length_cons, Stmt.size]
    omega
  | whileLoop test _ ih =>
    have size := Relation.length test
    simp only [List.length_append, List.length_cons, List.length_nil, Stmt.size]
    omega
  | repeatLoop _ test ih =>
    have size := Relation.length test
    simp only [List.length_append, List.length_cons, List.length_nil, Stmt.size]
    omega
  | forLoop _ starts upTo _ _ _ _ _ ih =>
    simp only [List.length_append, List.length_cons, List.length_nil, Stmt.size, starts.length,
      upTo.length, ih]
    omega
  | writeln value => rw [List.length_append, value.length, Stmt.size, List.length_singleton]

/-- The code of a statement stands at its place within some code that starts at `base`. -/
def Stmt.StandsIn (table : SymbolTable) (base : Nat) (code : List Quad) (place : Nat) (s : Stmt) : Prop :=
  ∃ lo hi before inner after, code = before ++ (inner ++ after) ∧ place = base + before.length ∧
    s.Laid table lo hi place inner

namespace Stmt.StandsIn

variable {s : Stmt} {place : Nat}

theorem left (stands : s.StandsIn table base code place) (later : List Quad) :
    s.StandsIn table base (code ++ later) place := by
  obtain ⟨lo, hi, before, inner, after, rfl, here, laid⟩ := stands
  refine ⟨lo, hi, before, inner, after ++ later, ?_, here, laid⟩
  rw [List.append_assoc, List.append_assoc]

theorem right {earlier : List Quad} (stands : s.StandsIn table (base + earlier.length) code place) :
    s.StandsIn table base (earlier ++ code) place := by
  obtain ⟨lo, hi, before, inner, after, rfl, here, laid⟩ := stands
  refine ⟨lo, hi, earlier ++ before, inner, after, (List.append_assoc ..).symm, ?_, laid⟩
  rw [here, List.length_append, Nat.add_assoc]

theorem tail {q : Quad} (stands : s.StandsIn table (base + 1) code place) :
    s.StandsIn table base (q :: code) place := by
  have later : s.StandsIn table (base + [q].length) code place := stands
  exact later.right

end Stmt.StandsIn

theorem Stmt.Laid.standsIn {s : Stmt} (laid : s.Laid table lo hi base code) :
    s.StandsIn table base code base :=
  ⟨lo, hi, [], code, [], by simp, rfl, laid⟩

/-- The code of every statement within a statement is found at its place. -/
theorem Stmt.Laid.part {s inner : Stmt} {place : Nat} (laid : s.Laid table lo hi base code)
    (member : (place, inner) ∈ s.parts base) : inner.StandsIn table base code place := by
  have whole := laid.standsIn
  induction laid with
  | empty | assignment | writeln | readln =>
    rw [parts, List.mem_singleton] at member
    cases member
    exact whole
  | sequence first second ih ih' =>
    rw [parts, List.mem_cons, List.mem_append, ← first.length] at member
    obtain ⟨⟨⟩⟩ | member | member := member
    · exact whole
    · exact (ih member first.standsIn).left _
    · exact (ih' member second.standsIn).right
  | ifThen test body ih =>
    rw [parts, List.mem_cons, ← Relation.length test, ← Nat.add_assoc] at member
    obtain ⟨⟨⟩⟩ | member := member
    · exact whole
    · exact (ih member body.standsIn).tail.right
  | ifElse test body other ih ih' =>
    rw [parts, List.mem_cons, List.mem_append, ← Relation.length test, ← body.length, ← Nat.add_assoc]
      at member
    obtain ⟨⟨⟩⟩ | member | member := member
    · exact whole
    · exact ((ih member body.standsIn).left _).tail.right
    · exact (ih' member other.standsIn).tail.right.tail.right
  | whileLoop test body ih =>
    rw [parts, List.mem_cons, ← Relation.length test, ← Nat.add_assoc] at member
    obtain ⟨⟨⟩⟩ | member := member
    · exact whole
    · exact ((ih member body.standsIn).left _).tail.right
  | repeatLoop body test ih =>
    rw [parts, List.mem_cons] at member
    obtain ⟨⟨⟩⟩ | member := member
    · exact whole
    · exact (ih member body.standsIn).left _
  | forLoop _ starts upTo _ _ _ _ body ih =>
    rw [parts, List.mem_cons, ← starts.length, ← upTo.length] at member
    obtain ⟨⟨⟩⟩ | member := member
    · exact whole
    · exact ((ih member body.standsIn).left _).tail.tail.tail.tail.right.right

theorem Stmt.DrawnFrom.part {s inner : Stmt} {place : Nat} (drawn : s.DrawnFrom tokens)
    (member : (place, inner) ∈ s.parts base) : inner.DrawnFrom tokens := by
  induction s generalizing base with
  | empty | assignment | writeln | readln =>
    rw [parts, List.mem_singleton] at member
    cases member
    exact drawn
  | sequence _ _ ih ih' =>
    rw [parts, List.mem_cons, List.mem_append] at member
    obtain ⟨⟨⟩⟩ | member | member := member
    · exact drawn
    · exact ih drawn.1 member
    · exact ih' drawn.2 member
  | ifThen _ _ ih | whileLoop _ _ ih =>
    rw [parts, List.mem_cons] at member
    obtain ⟨⟨⟩⟩ | member := member
    · exact drawn
    · exact ih drawn.2 member
  | ifElse _ _ _ ih ih' =>
    rw [parts, List.mem_cons, List.mem_append] at member
    obtain ⟨⟨⟩⟩ | member | member := member
    · exact drawn
    · exact ih drawn.2.1 member
    · exact ih' drawn.2.2 member
  | repeatLoop _ _ ih =>
    rw [parts, List.mem_cons] at member
    obtain ⟨⟨⟩⟩ | member := member
    · exact drawn
    · exact ih drawn.1 member
  | forLoop _ _ _ _ _ ih =>
    rw [parts, List.mem_cons] at member
    obtain ⟨⟨⟩⟩ | member := member
    · exact drawn
    · exact ih drawn.2.2.2 member

end MiniPascal.Syntax
