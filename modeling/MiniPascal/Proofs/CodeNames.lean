import MiniPascal.Proofs.ConstantCells
import MiniPascal.Proofs.DefiniteAssignment

/-! # The names behind the cells of a quad

Every cell that the code of a statement uses belongs to a name: to a variable or a literal of the
statement, to the compiler's 1 or -1, or to a temporary of the statement. What the code writes are
variables and temporaries. Conversely, the code uses the cell of every variable of the statement.
-/

namespace MiniPascal

open Syntax

/-- A number is the cell of a name that has a property. -/
def SymbolTable.CellOf (table : SymbolTable) (P : Text → Prop) (i : Int) : Prop :=
  ∃ (name : Text) (k : Nat), P name ∧ table.lookup? name = some k ∧ i = k

/-- A quad reads only cells of names with one property, and writes only cells of names with another. -/
structure Quad.Uses (table : SymbolTable) (read written : Text → Prop) (q : Quad) : Prop where
  reads : ∀ i ∈ q.reads, table.CellOf read i
  writes : q.op.stores = true → table.CellOf written q.c

theorem Quad.mem_cellFields {q : Quad} {i : Int} (member : i ∈ q.cellFields) :
    i ∈ q.reads ∨ q.op.stores = true ∧ i = q.c := by
  unfold cellFields at member
  unfold reads
  cases op : q.op <;> simp_all [Opcode.stores, Opcode.isArithmetic]
  all_goals omega

section Uses

variable {table : SymbolTable} {read written : Text → Prop}

theorem Quad.Uses.cellFields {q : Quad} (uses : q.Uses table read read) :
    ∀ i ∈ q.cellFields, table.CellOf read i := by
  intro i member
  obtain reads | ⟨stores, rfl⟩ := Quad.mem_cellFields member
  · exact uses.reads i reads
  · exact uses.writes stores

theorem Quad.Uses.of_operation (op : Operator) {i j k : Nat} (left : table.CellOf read i)
    (right : table.CellOf read j) (result : table.CellOf written k) :
    Uses table read written ⟨op.opcode, i, j, k⟩ := by
  have operands : ∀ n ∈ [(i : Int), (j : Int)], table.CellOf read n := by
    rw [List.forall_mem_cons, List.forall_mem_singleton]
    exact ⟨left, right⟩
  cases op <;> exact ⟨operands, fun _ => result⟩

theorem Quad.Uses.of_span (down : Bool) {counter bound k : Nat} (own : table.CellOf read counter)
    (other : table.CellOf read bound) (result : table.CellOf written k) :
    Uses table read written ⟨.sub, (span down counter bound).1, (span down counter bound).2, k⟩ := by
  cases down with
  | true => exact .of_operation .sub own other result
  | false => exact .of_operation .sub other own result

theorem Quad.Uses.of_copy {i k : Nat} (source : table.CellOf read i) (target : table.CellOf written k) :
    Uses table read written ⟨.mov, i, 0, k⟩ :=
  ⟨List.forall_mem_singleton.mpr source, fun _ => target⟩

theorem Quad.Uses.of_test {op : Opcode} (conditional : op.isConditional = true) {i : Nat}
    (test : table.CellOf read i) (target : Int) : Uses table read written ⟨op, i, 0, target⟩ := by
  have operand : Quad.reads ⟨op, i, 0, target⟩ = [(i : Int)] := by
    cases op <;> first | rfl | cases conditional
  have silent : op.stores = false := by
    cases op <;> first | rfl | cases conditional
  refine ⟨?_, fun stores => ?_⟩
  · rw [operand]
    exact List.forall_mem_singleton.mpr test
  · rw [silent] at stores
    cases stores

theorem Quad.Uses.of_jump (target : Int) : Uses table read written ⟨.jmp, 0, 0, target⟩ :=
  ⟨List.forall_mem_nil _, fun stores => nomatch stores⟩

end Uses

namespace Syntax

variable {tokens : List Token} {table : SymbolTable} {read written : Text → Prop}
variable {names names' : List Text} {lo hi lo' hi' : Nat}

/-- What the code of a phrase may read and write: its variables, the literals among the tokens, 1 and -1,
and its temporaries. -/
structure Vocabulary (tokens : List Token) (read written : Text → Prop) (names : List Text)
    (lo hi : Nat) : Prop where
  named : ∀ name ∈ names, read name ∧ written name
  literal : ∀ kind name, Among tokens kind name → kind.isLiteral = true → read name
  unit : read (.ofInt 1) ∧ read (.ofInt (-1))
  temporary : ∀ n, lo < n → n ≤ hi → read (Rule.temporaryName n) ∧ written (Rule.temporaryName n)

theorem Vocabulary.narrow (has : Vocabulary tokens read written names lo hi) (sub : names' ⊆ names)
    (lower : lo ≤ lo') (upper : hi' ≤ hi) : Vocabulary tokens read written names' lo' hi' :=
  ⟨fun name member => has.named name (sub member), has.literal, has.unit,
    fun n above below => has.temporary n (by omega) (by omega)⟩

/-- An expression is left in the cell of a name that may be read, and its code stays within what it may
use. -/
theorem Expr.Laid.uses {e : Expr} {i : Nat} {code : List Quad} (laid : e.Laid table lo hi code i)
    (drawn : e.OperandFrom tokens) (has : Vocabulary tokens read written e.names lo hi) :
    table.CellOf read i ∧ ∀ q ∈ code, q.Uses table read written := by
  induction laid with
  | @literal name _ i found =>
    refine ⟨⟨name, i, ?_, found, rfl⟩, List.forall_mem_nil _⟩
    obtain (among | among) | ⟨_, ⟨⟩, among⟩ := drawn
    · exact has.literal _ _ among rfl
    · exact has.literal _ _ among rfl
    · exact has.literal _ _ among rfl
  | @var name _ i found =>
    exact ⟨⟨name, i, (has.named name (List.mem_singleton_self _)).1, found, rfl⟩, List.forall_mem_nil _⟩
  | @negated e lo n i one result code inner minusOne made ih =>
    obtain drawn | ⟨_, ⟨⟩, _⟩ := drawn
    obtain ⟨operand, uses⟩ := ih (.inl drawn) (has.narrow (List.Subset.refl _) (Nat.le_refl _) (by omega))
    obtain ⟨_, _, _, _, made⟩ := made.kinds
    have le := inner.le
    obtain ⟨read, written⟩ := has.temporary (n + 1) (by omega) (Nat.le_refl _)
    refine ⟨⟨_, result, read, made.lookup, rfl⟩, ?_⟩
    rw [List.forall_mem_append, List.forall_mem_singleton]
    exact ⟨uses, .of_operation .mul operand ⟨_, one, has.unit.2, minusOne, rfl⟩
      ⟨_, result, written, made.lookup, rfl⟩⟩
  | @operation op l r lo middle n i j result _ _ left right made ih ih' =>
    obtain drawn | ⟨_, ⟨⟩, _⟩ := drawn
    have le := left.le
    have le' := right.le
    obtain ⟨operand, uses⟩ := ih (.inl drawn.1)
      (has.narrow (List.subset_append_left _ _) (Nat.le_refl _) (by omega))
    obtain ⟨operand', uses'⟩ := ih' (.inl drawn.2)
      (has.narrow (List.subset_append_right _ _) le (by omega))
    obtain ⟨_, _, _, _, made⟩ := made.kinds
    obtain ⟨read, written⟩ := has.temporary (n + 1) (by omega) (Nat.le_refl _)
    refine ⟨⟨_, result, read, made.lookup, rfl⟩, ?_⟩
    rw [List.forall_mem_append, List.forall_mem_append, List.forall_mem_singleton]
    exact ⟨uses, uses', .of_operation op operand operand' ⟨_, result, written, made.lookup, rfl⟩⟩

theorem Relation.DrawnFrom.difference {r : Relation} (drawn : r.DrawnFrom tokens) :
    r.difference.OperandFrom tokens :=
  .inl drawn

/-- The code of a statement stays within what the statement may use. -/
theorem Stmt.Laid.uses {s : Stmt} {base : Nat} {code : List Quad} (laid : s.Laid table lo hi base code)
    (drawn : s.DrawnFrom tokens) (has : Vocabulary tokens read written s.names lo hi) :
    ∀ q ∈ code, q.Uses table read written := by
  induction laid with
  | empty => exact List.forall_mem_nil _
  | sequence first second ih ih' =>
    rw [List.forall_mem_append]
    exact ⟨ih drawn.1 (has.narrow (List.subset_append_left _ _) (Nat.le_refl _) second.le),
      ih' drawn.2 (has.narrow (List.subset_append_right _ _) first.le (Nat.le_refl _))⟩
  | @assignment name _ _ _ _ target _ _ found source =>
    have written := (has.named name List.mem_cons_self).2
    obtain ⟨value, uses⟩ := source.uses drawn.2
      (has.narrow (List.subset_cons_self _ _) (Nat.le_refl _) (Nat.le_refl _))
    rw [List.forall_mem_append, List.forall_mem_singleton]
    exact ⟨uses, .of_copy value ⟨name, target, written, found, rfl⟩⟩
  | @ifThen r _ _ _ _ _ _ _ _ test body ih =>
    obtain ⟨value, uses⟩ := test.uses drawn.1.difference
      (has.narrow (List.subset_append_left _ _) (Nat.le_refl _) body.le)
    rw [List.forall_mem_append, List.forall_mem_cons]
    exact ⟨uses, .of_test r.comparison.isConditional_falseJump value _,
      ih drawn.2 (has.narrow (List.subset_append_right _ _) test.le (Nat.le_refl _))⟩
  | @ifElse r s t lo middle after hi _ _ _ _ _ test body other ih ih' =>
    have le := body.le
    have le' := other.le
    have names : t.names ⊆ r.names ++ (s.names ++ t.names) := fun name member => by simp [member]
    have names' : s.names ⊆ r.names ++ (s.names ++ t.names) := fun name member => by simp [member]
    obtain ⟨value, uses⟩ := test.uses drawn.1.difference
      (has.narrow (List.subset_append_left _ _) (Nat.le_refl _) (by omega))
    have le'' := test.le
    simp only [List.forall_mem_append, List.forall_mem_cons]
    exact ⟨uses, .of_test r.comparison.isConditional_falseJump value _,
      ih drawn.2.1 (has.narrow names' le'' le'), .of_jump _,
      ih' drawn.2.2 (has.narrow names (by omega) (Nat.le_refl _))⟩
  | @whileLoop r _ _ _ _ _ _ _ _ test body ih =>
    obtain ⟨value, uses⟩ := test.uses drawn.1.difference
      (has.narrow (List.subset_append_left _ _) (Nat.le_refl _) body.le)
    simp only [List.forall_mem_append, List.forall_mem_cons, List.not_mem_nil, false_imp_iff,
      implies_true, and_true]
    exact ⟨uses, .of_test r.comparison.isConditional_falseJump value _,
      ih drawn.2 (has.narrow (List.subset_append_right _ _) test.le (Nat.le_refl _)), .of_jump _⟩
  | @repeatLoop r _ _ _ _ _ _ _ _ body test ih =>
    obtain ⟨value, uses⟩ := test.uses drawn.2.difference
      (has.narrow (List.subset_append_right _ _) body.le (Nat.le_refl _))
    simp only [List.forall_mem_append, List.forall_mem_singleton]
    exact ⟨ih drawn.1 (has.narrow (List.subset_append_left _ _) (Nat.le_refl _) test.le), uses,
      .of_test r.comparison.isConditional_falseJump value _⟩
  | @forLoop name a b down s lo middle n hi _ counter start limit step bound distance _ _ _ _ found
      starts upTo steps _ copied made body ih =>
    have le := starts.le
    have le' := upTo.le
    have le'' := body.le
    have names : a.names ⊆ name :: (a.names ++ (b.names ++ s.names)) := fun name member => by simp [member]
    have names' : b.names ⊆ name :: (a.names ++ (b.names ++ s.names)) := fun name member => by
      simp [member]
    have names'' : s.names ⊆ name :: (a.names ++ (b.names ++ s.names)) := fun name member => by
      simp [member]
    obtain ⟨first, uses⟩ := starts.uses (.inl drawn.2.1) (has.narrow names (Nat.le_refl _) (by omega))
    obtain ⟨last, uses'⟩ := upTo.uses (.inl drawn.2.2.1) (has.narrow names' le (by omega))
    have uses'' := ih drawn.2.2.2 (has.narrow names'' (by omega) (Nat.le_refl _))
    obtain ⟨readCounter, writtenCounter⟩ := has.named name List.mem_cons_self
    obtain ⟨readBound, writtenBound⟩ := has.temporary (n + 1) (by omega) (by omega)
    obtain ⟨readDistance, writtenDistance⟩ := has.temporary (n + 2) (by omega) (by omega)
    obtain ⟨_, _, _, _, made⟩ := made.kinds
    have own : table.CellOf read counter := ⟨name, counter, readCounter, found, rfl⟩
    have assigned : table.CellOf written counter := ⟨name, counter, writtenCounter, found, rfl⟩
    have test : table.CellOf read distance := ⟨_, distance, readDistance, made.lookup, rfl⟩
    have unit : table.CellOf read step := by
      refine ⟨_, step, ?_, steps, rfl⟩
      cases down with
      | true => exact has.unit.2
      | false => exact has.unit.1
    have subtracts := Quad.Uses.of_span down own ⟨_, bound, readBound, copied.lookup, rfl⟩
      ⟨_, distance, writtenDistance, made.lookup, rfl⟩
    simp only [List.forall_mem_append, List.forall_mem_cons, List.not_mem_nil, false_imp_iff,
      implies_true, and_true]
    exact ⟨uses, uses', ⟨.of_copy first assigned, .of_copy last ⟨_, bound, writtenBound, copied.lookup, rfl⟩,
      subtracts, .of_test rfl test _⟩, uses'', .of_operation .add own unit assigned, subtracts,
      .of_test rfl test _⟩
  | writeln value =>
    obtain ⟨shown, uses⟩ := value.uses drawn has
    rw [List.forall_mem_append, List.forall_mem_singleton]
    exact ⟨uses, List.forall_mem_singleton.mpr shown, fun stores => nomatch stores⟩
  | @readln name _ _ target found =>
    rw [List.forall_mem_singleton]
    exact ⟨List.forall_mem_nil _, fun _ =>
      ⟨name, target, (has.named name (List.mem_singleton_self _)).2, found, rfl⟩⟩

/-! ## Variables of a statement in its code -/

/-- The code uses the cell of each of the names. -/
def Covers (table : SymbolTable) (names : List Text) (code : List Quad) : Prop :=
  ∀ name ∈ names, ∃ k : Nat, table.lookup? name = some k ∧ ∃ q ∈ code, (k : Int) ∈ q.cellFields

theorem Covers.mono {code more : List Quad} (covers : Covers table names code) (sub : code ⊆ more) :
    Covers table names more := by
  intro name member
  obtain ⟨k, found, q, stored, uses⟩ := covers name member
  exact ⟨k, found, q, sub stored, uses⟩

theorem Covers.append {code : List Quad} (first : Covers table names code)
    (second : Covers table names' code) : Covers table (names ++ names') code :=
  List.forall_mem_append.mpr ⟨first, second⟩

/-- What is left in a cell that the code after an expression uses. -/
theorem Expr.Laid.covers {e : Expr} {i : Nat} {code after : List Quad}
    (laid : e.Laid table lo hi code i) (used : ∃ q ∈ after, (i : Int) ∈ q.cellFields) :
    Covers table e.names (code ++ after) := by
  induction laid generalizing after with
  | literal => exact List.forall_mem_nil _
  | var found => exact List.forall_mem_singleton.mpr ⟨_, found, used⟩
  | negated inner _ _ ih =>
    rw [List.append_assoc]
    exact ih ⟨_, List.mem_cons_self, List.mem_cons_self⟩
  | @operation op _ _ _ _ _ i j result code code' _ _ _ ih ih' =>
    have operands : Quad.cellFields ⟨op.opcode, i, j, result⟩ = [(i : Int), (j : Int), (result : Int)] := by
      cases op <;> rfl
    have left := @ih (code' ++ [⟨op.opcode, i, j, result⟩] ++ after)
      ⟨⟨op.opcode, i, j, result⟩, by simp, by simp [operands]⟩
    have right := @ih' ([⟨op.opcode, i, j, result⟩] ++ after)
      ⟨⟨op.opcode, i, j, result⟩, by simp, by simp [operands]⟩
    refine .append (left.mono fun q member => ?_) (right.mono fun q member => ?_)
    · simpa using member
    · simp only [List.mem_append] at member ⊢
      tauto

theorem Comparison.uses_test (comparison : Comparison) (i : Nat) (target : Int) (later : List Quad) :
    ∃ q ∈ ⟨comparison.falseJump, i, 0, target⟩ :: later, (i : Int) ∈ q.cellFields := by
  refine ⟨_, List.mem_cons_self, ?_⟩
  cases comparison <;> exact List.mem_cons_self

/-- The code of a statement uses the cell of each of its variables. -/
theorem Stmt.Laid.covers {s : Stmt} {base : Nat} {code : List Quad}
    (laid : s.Laid table lo hi base code) : Covers table s.names code := by
  induction laid with
  | empty => exact List.forall_mem_nil _
  | sequence _ _ ih ih' =>
    exact .append (ih.mono (List.subset_append_left _ _)) (ih'.mono (List.subset_append_right _ _))
  | @assignment name _ _ _ _ target i _ found source =>
    have own : Covers table [name] [⟨.mov, i, 0, target⟩] :=
      List.forall_mem_singleton.mpr ⟨target, found, _, List.mem_cons_self, by simp [Quad.cellFields]⟩
    exact .append (own.mono (List.subset_append_right _ _))
      (source.covers ⟨_, List.mem_cons_self, List.mem_cons_self⟩)
  | @ifThen r _ _ _ _ _ _ code code' test _ ih =>
    refine .append (test.covers (r.comparison.uses_test _ _ _)) (ih.mono fun q member => ?_)
    exact List.mem_append_right code (List.mem_cons_of_mem _ member)
  | @ifElse r _ _ _ _ _ _ _ _ code code' code'' test _ _ ih ih' =>
    refine .append (test.covers (r.comparison.uses_test _ _ _)) (.append ?_ ?_)
    · exact ih.mono fun q member => by simp [member]
    · exact ih'.mono fun q member => by simp [member]
  | @whileLoop r _ _ _ _ _ _ code code' test _ ih =>
    refine .append (test.covers (r.comparison.uses_test _ _ _)) (ih.mono fun q member => ?_)
    simp [member]
  | @repeatLoop r _ _ _ _ _ _ code code' _ test ih =>
    refine .append (ih.mono (List.subset_append_left _ _)) ?_
    exact (test.covers (r.comparison.uses_test _ _ _)).mono (List.subset_append_right _ _)
  | @forLoop name _ _ _ _ _ _ _ _ _ counter start limit _ bound _ _ code code' code'' found starts upTo
      _ _ _ _ _ ih =>
    have own : Covers table [name] [⟨.mov, start, 0, counter⟩] :=
      List.forall_mem_singleton.mpr ⟨counter, found, _, List.mem_cons_self, by simp [Quad.cellFields]⟩
    refine .append (own.mono fun q member => ?_) (.append (starts.covers ?_) (.append ?_ ?_))
    · obtain rfl := List.mem_singleton.mp member
      simp
    · exact ⟨⟨.mov, start, 0, counter⟩, by simp, List.mem_cons_self⟩
    · refine (upTo.covers ?_).mono (List.subset_append_right _ _)
      exact ⟨⟨.mov, limit, 0, bound⟩, by simp, List.mem_cons_self⟩
    · exact ih.mono fun q member => by simp [member]
  | writeln value => exact value.covers ⟨_, List.mem_cons_self, List.mem_cons_self⟩
  | readln found =>
    exact List.forall_mem_singleton.mpr ⟨_, found, _, List.mem_cons_self, List.mem_cons_self⟩

end Syntax

end MiniPascal
