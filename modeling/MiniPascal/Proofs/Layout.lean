import MiniPascal.Proofs.Tables
import MiniPascal.Proofs.Syntax
import MiniPascal.Compiler.Emit

/-! # The code of a program

The code that a syntax tree stands for, as a relation. An expression's code leaves its value in a cell:
the cell of a variable or a literal, or a temporary. Temporaries are numbered, and the code of a phrase
uses those above `lo` up to `hi`. The code of a statement starts at the quad `base`, which its jumps are
relative to.
-/

namespace MiniPascal

/-- The kind of an arithmetic result. -/
def arithmeticKind (left right : Kind) : Kind :=
  if left = .integer ∧ right = .integer then .integer else .real

namespace SymbolTable

/-- The kind of the value in a cell. -/
def kindAt (table : SymbolTable) (i : Nat) : Option Kind := (table.cells[i]?).map (·.value.kind)

/-- The cell at an index is one of the compiler's temporaries. -/
def IsTemporary (table : SymbolTable) (i : Int) : Prop :=
  ∃ n, table.name i = .ok (Rule.temporaryName n)

/-- The temporary with a number and a kind. -/
structure Temporary (table : SymbolTable) (n : Nat) (kind : Kind) (i : Nat) : Prop where
  lookup : table.lookup? (Rule.temporaryName n) = some i
  cell : table.cells[i]? = some ⟨Rule.temporaryName n, .constant, .zero kind⟩

/-- The temporary for the result of an operation on two cells. -/
structure Result (table : SymbolTable) (n a b i : Nat) : Prop where
  kinds : ∃ left right, table.kindAt a = some left ∧ table.kindAt b = some right ∧
    table.Temporary n (arithmeticKind left right) i

namespace Extends

variable {table more : SymbolTable}

theorem kindAt (extend : table.Extends more) {i : Nat} {kind : Kind}
    (here : table.kindAt i = some kind) : more.kindAt i = some kind := by
  obtain ⟨cell, stored, rfl⟩ := Option.map_eq_some_iff.mp here
  exact Option.map_eq_some_iff.mpr ⟨cell, extend.cells i cell stored, rfl⟩

theorem temporary (extend : table.Extends more) {n i : Nat} {kind : Kind}
    (here : table.Temporary n kind i) : more.Temporary n kind i :=
  ⟨extend.lookup _ _ here.lookup, extend.cells _ _ here.cell⟩

theorem result (extend : table.Extends more) {n a b i : Nat} (here : table.Result n a b i) :
    more.Result n a b i := by
  obtain ⟨left, right, first, second, made⟩ := here.kinds
  exact ⟨left, right, extend.kindAt first, extend.kindAt second, extend.temporary made⟩

end Extends

end SymbolTable

namespace Syntax

/-- The operation that an operator stands for. -/
def Operator.opcode : Operator → Opcode
  | add => .add
  | sub => .sub
  | mul => .mul
  | div => .div

/-- The jump that is taken when a comparison fails, by the sign of the difference. -/
def Comparison.falseJump : Comparison → Opcode
  | equal => .jnz
  | notEqual => .jz
  | less => .jnn
  | greater => .jnp
  | lessEq => .jp
  | greaterEq => .jn

/-- The code of an expression, with the cell that its value is left in. -/
inductive Expr.Laid (table : SymbolTable) : Expr → (lo hi : Nat) → List Quad → (cell : Nat) → Prop
  | literal {name : Text} {n i : Nat} (found : table.lookup? name = some i) :
      Laid table (.literal name) n n [] i
  | var {name : Text} {n i : Nat} (found : table.lookup? name = some i) :
      Laid table (.var name) n n [] i
  | negated {e : Expr} {lo n i one result : Nat} {code : List Quad} (inner : Laid table e lo n code i)
      (minusOne : table.lookup? (.ofInt (-1)) = some one) (made : table.Result (n + 1) i one result) :
      Laid table (.negated e) lo (n + 1) (code ++ [⟨.mul, i, one, result⟩]) result
  | operation {op : Operator} {l r : Expr} {lo middle n i j result : Nat} {code code' : List Quad}
      (left : Laid table l lo middle code i) (right : Laid table r middle n code' j)
      (made : table.Result (n + 1) i j result) :
      Laid table (.operation op l r) lo (n + 1) (code ++ (code' ++ [⟨op.opcode, i, j, result⟩])) result

/-- The difference that a relation is decided by. -/
def Relation.difference (r : Relation) : Expr := .operation .sub r.left r.right

/-- The sides of the subtraction that tells how far a counter has to go. -/
def span (down : Bool) (counter bound : Nat) : Nat × Nat :=
  if down then (counter, bound) else (bound, counter)

/-- The code of a statement that starts at the quad `base`. -/
inductive Stmt.Laid (table : SymbolTable) : Stmt → (lo hi base : Nat) → List Quad → Prop
  | empty {n base : Nat} : Laid table .empty n n base []
  | sequence {s t : Stmt} {lo middle hi base : Nat} {code code' : List Quad}
      (first : Laid table s lo middle base code)
      (second : Laid table t middle hi (base + code.length) code') :
      Laid table (.sequence s t) lo hi base (code ++ code')
  | assignment {name : Text} {e : Expr} {lo hi base target i : Nat} {code : List Quad}
      (found : table.lookup? name = some target) (source : e.Laid table lo hi code i) :
      Laid table (.assignment name e) lo hi base (code ++ [⟨.mov, i, 0, target⟩])
  | ifThen {r : Relation} {s : Stmt} {lo middle hi base i : Nat} {code code' : List Quad}
      (test : r.difference.Laid table lo middle code i)
      (body : Laid table s middle hi (base + code.length + 1) code') :
      Laid table (.ifThen r s) lo hi base
        (code ++ ⟨r.comparison.falseJump, i, 0, (base + code.length + 1 + code'.length : Nat)⟩ :: code')
  | ifElse {r : Relation} {s t : Stmt} {lo middle after hi base i : Nat}
      {code code' code'' : List Quad} (test : r.difference.Laid table lo middle code i)
      (body : Laid table s middle after (base + code.length + 1) code')
      (other : Laid table t after hi (base + code.length + 1 + code'.length + 1) code'') :
      Laid table (.ifElse r s t) lo hi base
        (code ++ ⟨r.comparison.falseJump, i, 0,
            (base + code.length + 1 + code'.length + 1 : Nat)⟩ ::
          (code' ++ ⟨.jmp, 0, 0,
            (base + code.length + 1 + code'.length + 1 + code''.length : Nat)⟩ :: code''))
  | whileLoop {r : Relation} {s : Stmt} {lo middle hi base i : Nat} {code code' : List Quad}
      (test : r.difference.Laid table lo middle code i)
      (body : Laid table s middle hi (base + code.length + 1) code') :
      Laid table (.whileLoop r s) lo hi base
        (code ++ ⟨r.comparison.falseJump, i, 0,
            (base + code.length + 1 + code'.length + 1 : Nat)⟩ ::
          (code' ++ [⟨.jmp, 0, 0, base⟩]))
  | repeatLoop {r : Relation} {s : Stmt} {lo middle hi base i : Nat} {code code' : List Quad}
      (body : Laid table s lo middle base code) (test : r.difference.Laid table middle hi code' i) :
      Laid table (.repeatLoop s r) lo hi base
        (code ++ (code' ++ [⟨r.comparison.falseJump, i, 0, base⟩]))
  | forLoop {name : Text} {a b : Expr} {down : Bool} {s : Stmt} {lo middle n hi base : Nat}
      {counter start limit step bound distance : Nat} {kind : Kind} {code code' code'' : List Quad}
      (found : table.lookup? name = some counter) (starts : a.Laid table lo middle code start)
      (upTo : b.Laid table middle n code' limit)
      (steps : table.lookup? (.ofInt (if down then -1 else 1)) = some step)
      (kindAt : table.kindAt limit = some kind) (copied : table.Temporary (n + 1) kind bound)
      (made : table.Result (n + 2) bound counter distance)
      (body : Laid table s (n + 2) hi (base + code.length + code'.length + 4) code'') :
      Laid table (.forLoop name a b down s) lo hi base
        (code ++ (code' ++
          ([⟨.mov, start, 0, counter⟩, ⟨.mov, limit, 0, bound⟩,
            ⟨.sub, (span down counter bound).1, (span down counter bound).2, distance⟩,
            ⟨.jn, distance, 0,
              (base + code.length + code'.length + 4 + code''.length + 3 : Nat)⟩] ++
          (code'' ++ [⟨.add, counter, step, counter⟩,
            ⟨.sub, (span down counter bound).1, (span down counter bound).2, distance⟩,
            ⟨.jnn, distance, 0, (base + code.length + code'.length + 4 : Nat)⟩]))))
  | writeln {e : Expr} {lo hi base i : Nat} {code : List Quad} (value : e.Laid table lo hi code i) :
      Laid table (.writeln e) lo hi base (code ++ [⟨.print, 0, 0, i⟩])
  | readln {name : Text} {n base target : Nat} (found : table.lookup? name = some target) :
      Laid table (.readln name) n n base [⟨.read, 0, 0, target⟩]

variable {table more : SymbolTable}

/-- Code stays what it is when cells are added. -/
theorem Expr.Laid.extend {e : Expr} {lo hi i : Nat} {code : List Quad}
    (laid : e.Laid table lo hi code i) (grown : table.Extends more) : e.Laid more lo hi code i := by
  induction laid with
  | literal found => exact .literal (grown.lookup _ _ found)
  | var found => exact .var (grown.lookup _ _ found)
  | negated _ minusOne made ih => exact .negated ih (grown.lookup _ _ minusOne) (grown.result made)
  | operation _ _ made ihLeft ihRight => exact .operation ihLeft ihRight (grown.result made)

theorem Stmt.Laid.extend {s : Stmt} {lo hi base : Nat} {code : List Quad}
    (laid : s.Laid table lo hi base code) (grown : table.Extends more) :
    s.Laid more lo hi base code := by
  induction laid with
  | empty => exact .empty
  | sequence _ _ ih ih' => exact .sequence ih ih'
  | assignment found source => exact .assignment (grown.lookup _ _ found) (source.extend grown)
  | ifThen test _ ih => exact .ifThen (test.extend grown) ih
  | ifElse test _ _ ih ih' => exact .ifElse (test.extend grown) ih ih'
  | whileLoop test _ ih => exact .whileLoop (test.extend grown) ih
  | repeatLoop _ test ih => exact .repeatLoop ih (test.extend grown)
  | forLoop found starts upTo steps kindAt copied made _ ih =>
    exact .forLoop (grown.lookup _ _ found) (starts.extend grown) (upTo.extend grown)
      (grown.lookup _ _ steps) (grown.kindAt kindAt) (grown.temporary copied) (grown.result made) ih
  | writeln value => exact .writeln (value.extend grown)
  | readln found => exact .readln (grown.lookup _ _ found)

end Syntax

end MiniPascal
